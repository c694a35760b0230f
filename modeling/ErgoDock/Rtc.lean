import ErgoDock.Lib.Calendar

/-! # The clock of the device (`g.c`, `x_drive.c`)

The real-time clock keeps the date and the time of UTC+8 in fields of a few bits each.
`x_time_UTC_ToRTC` sets them from epoch seconds, `x_time_RTC_ToUTC` adds the epoch seconds up again
from the fields.  The clock itself is no part of the model: `x_rtc_get` reads what `x_rtc_set`
wrote.

For the years 2000 to 2099 the sum is the one of the calendar, without an overflow in any of its
steps, it follows the order of the calendar, and it is the inverse of the first function
(`calendar_conversion`). -/

namespace ErgoDock

open Calendar

/-! ### The functions -/

/-- `calendar_cal_t`. -/
structure CalendarCal where
  date : BitVec 5
  mon : BitVec 4
  year : BitVec 7
deriving DecidableEq

/-- `calendar_time_t`. -/
structure CalendarTime where
  sec : BitVec 6
  min : BitVec 6
  hour : BitVec 5
  week : BitVec 3
deriving DecidableEq

/-- What the functions use of `struct tm`. -/
structure Tm where
  tmSec : ℤ
  tmMin : ℤ
  tmHour : ℤ
  tmMday : ℤ
  tmMon : ℤ
  tmYear : ℤ
  tmWday : ℤ
deriving DecidableEq, Repr

/-- `localtime` of the C library, with UTC as the local time. -/
def localtime (timestamp : ℕ) : Tm :=
  let d := dateOfDay 1970 (timestamp / 86400)
  { tmSec := timestamp % 60
    tmMin := timestamp / 60 % 60
    tmHour := timestamp / 3600 % 24
    tmMday := d.day
    tmMon := d.month - 1
    tmYear := d.year - 1900
    tmWday := (timestamp / 86400 + 4) % 7 }

/-- `x_rtc_set`: the fields it writes. -/
def xRtcSet (year : UInt16) (month day hour minute second week : UInt8) :
    CalendarCal × CalendarTime :=
  (⟨.ofNat 5 day.toNat, .ofNat 4 month.toNat, .ofNat 7 (year % 100).toNat⟩,
    ⟨.ofNat 6 second.toNat, .ofNat 6 minute.toNat, .ofNat 5 hour.toNat, .ofNat 3 week.toNat⟩)

/-- `x_time_UTC_ToRTC`. -/
def xTimeUTCToRTC (utc : UInt64) : CalendarCal × CalendarTime :=
  let tm := localtime (utc + 8 * 3600).toNat
  xRtcSet (.ofInt (tm.tmYear - 100)) (.ofInt (tm.tmMon + 1)) (.ofInt tm.tmMday) (.ofInt tm.tmHour)
    (.ofInt tm.tmMin) (.ofInt tm.tmSec) (.ofInt tm.tmWday)

/-- `IsLeapYear`. -/
def isLeapYear (year : UInt16) : Bool :=
  (year % 4 == 0 && year % 100 != 0) || year % 400 == 0

def daysPerMonth : List UInt8 := [31, 28, 31, 30, 31, 30, 31, 31, 30, 31, 30, 31]

/-- `days` in the second loop of `x_time_RTC_ToUTC`. -/
def daysOf (year : UInt16) (m : ℕ) : UInt8 :=
  let days := daysPerMonth.getD (m - 1) 0
  if m = 2 ∧ isLeapYear year then days + 1 else days

/-- `x_time_RTC_ToUTC`. -/
def xTimeRTCToUTC (cal : CalendarCal) (time : CalendarTime) : UInt32 :=
  let year : UInt16 := 2000 + .ofNat cal.year.toNat
  let years : UInt32 := (List.range' 1970 (year.toNat - 1970)).foldl (fun seconds y =>
    seconds + (if isLeapYear (.ofNat y) then 366 else 365) * 24 * 60 * 60) 0
  let months := (List.range' 1 (cal.mon.toNat - 1)).foldl (fun seconds m =>
    seconds + (daysOf year m).toUInt32 * 24 * 60 * 60) years
  let days := months + (.ofNat cal.date.toNat - 1) * 24 * 60 * 60
  let hours := days + .ofNat time.hour.toNat * 60 * 60
  let minutes := hours + .ofNat time.min.toNat * 60
  let seconds := minutes + .ofNat time.sec.toNat
  seconds - 8 * 3600

/-! ### The same with every step checked -/

/-- A value of an `int` that is not negative. -/
def int32 (n : ℕ) : Option ℕ := if n < 2 ^ 31 then some n else none

/-- A value of a `uint32_t`. -/
def uint32 (n : ℕ) : Option UInt32 := if n < 2 ^ 32 then some (.ofNat n) else none

/-- `days * 24 * 60 * 60`. -/
def daySeconds (days : ℕ) : Option ℕ := do
  let hours ← int32 (days * 24)
  let minutes ← int32 (hours * 60)
  int32 (minutes * 60)

/-- `x_time_RTC_ToUTC`, failing where a step overflows. -/
def xTimeRTCToUTCChecked (cal : CalendarCal) (time : CalendarTime) : Option UInt32 := do
  let year : UInt16 := 2000 + .ofNat cal.year.toNat
  let years ← (List.range' 1970 (year.toNat - 1970)).foldlM (fun (seconds : UInt32) y => do
    let t ← daySeconds (if isLeapYear (.ofNat y) then 366 else 365)
    uint32 (seconds.toNat + t)) 0
  let months ← (List.range' 1 (cal.mon.toNat - 1)).foldlM (fun (seconds : UInt32) m => do
    let t ← daySeconds (daysOf year m).toNat
    uint32 (seconds.toNat + t)) years
  let t ← daySeconds (cal.date.toNat - 1)
  let days ← uint32 (months.toNat + t)
  let t ← int32 (time.hour.toNat * 60)
  let t ← int32 (t * 60)
  let hours ← uint32 (days.toNat + t)
  let t ← int32 (time.min.toNat * 60)
  let minutes ← uint32 (hours.toNat + t)
  let seconds ← uint32 (minutes.toNat + time.sec.toNat)
  if 8 * 3600 ≤ seconds.toNat then some (seconds - 8 * 3600) else none

/-! ### Dates of the clock -/

/-- The date in the fields. -/
def CalendarCal.toDate (cal : CalendarCal) : Date :=
  ⟨2000 + cal.year.toNat, cal.mon.toNat, cal.date.toNat⟩

/-- The second of the day in the fields. -/
def CalendarTime.secondOfDay (time : CalendarTime) : ℕ :=
  3600 * time.hour.toNat + 60 * time.min.toNat + time.sec.toNat

/-- A date of the years 2000 to 2099 and a time. -/
structure RtcValid (cal : CalendarCal) (time : CalendarTime) : Prop where
  date : cal.toDate.Valid
  year : cal.year.toNat ≤ 99
  hour : time.hour.toNat < 24
  min : time.min.toNat < 60
  sec : time.sec.toNat < 60

/-- The order of the calendar. -/
def RtcBefore (cal cal' : CalendarCal) (time time' : CalendarTime) : Prop :=
  cal.toDate.Before cal'.toDate ∨ cal.toDate = cal'.toDate ∧
    (time.hour.toNat < time'.hour.toNat ∨ time.hour.toNat = time'.hour.toNat ∧
      (time.min.toNat < time'.min.toNat ∨ time.min.toNat = time'.min.toNat ∧
        time.sec.toNat < time'.sec.toNat))

theorem isLeapYear_iff {y : ℕ} (h : y < 2 ^ 16) : isLeapYear (.ofNat y) = true ↔ IsLeap y := by
  have hy : (UInt16.ofNat y).toNat = y := UInt16.toNat_ofNat_of_lt' h
  have hmod : ∀ k : UInt16, UInt16.ofNat y % k = 0 ↔ y % k.toNat = 0 := fun k => by
    rw [← UInt16.toNat_inj, UInt16.toNat_mod, hy]
    rfl
  simp only [isLeapYear, IsLeap, Bool.or_eq_true, Bool.and_eq_true, beq_iff_eq, bne_iff_ne, hmod,
    UInt16.reduceToNat, ne_eq]

theorem yearDays_eq {y : ℕ} (h : y < 2 ^ 16) :
    yearDays y = if isLeapYear (.ofNat y) then 366 else 365 := by
  simp only [yearDays, isLeapYear_iff h]

/-- The table and its correction in February. -/
theorem daysOf_eq {y m : ℕ} (h : y < 2 ^ 16) (h1 : 1 ≤ m) (h12 : m ≤ 12) :
    (daysOf (.ofNat y) m).toNat = monthDays y m := by
  have hm : m = 1 ∨ m = 2 ∨ m = 3 ∨ m = 4 ∨ m = 5 ∨ m = 6 ∨ m = 7 ∨ m = 8 ∨ m = 9 ∨ m = 10 ∨
      m = 11 ∨ m = 12 := by omega
  simp only [daysOf, isLeapYear_iff h]
  rcases hm with rfl | rfl | rfl | rfl | rfl | rfl | rfl | rfl | rfl | rfl | rfl | rfl
  case inr.inl =>
    simp only [monthDays, true_and]
    split <;> rfl
  all_goals rfl

/-! ### The sum -/

theorem add_days (k n : ℕ) :
    UInt32.ofNat k + .ofNat n * 24 * 60 * 60 = .ofNat (k + 86400 * n) := by
  rw [UInt32.ofNat_add, UInt32.ofNat_mul, UInt32.mul_assoc, UInt32.mul_assoc, UInt32.mul_comm]
  rfl

theorem add_hours (k n : ℕ) : UInt32.ofNat k + .ofNat n * 60 * 60 = .ofNat (k + 3600 * n) := by
  rw [UInt32.ofNat_add, UInt32.ofNat_mul, UInt32.mul_assoc, UInt32.mul_comm]
  rfl

theorem add_minutes (k n : ℕ) : UInt32.ofNat k + .ofNat n * 60 = .ofNat (k + 60 * n) := by
  rw [UInt32.ofNat_add, UInt32.ofNat_mul, UInt32.mul_comm]
  rfl

theorem uint32_add {k t : ℕ} (h : k + t < 2 ^ 32) :
    uint32 ((UInt32.ofNat k).toNat + t) = some (.ofNat (k + t)) := by
  rw [UInt32.toNat_ofNat_of_lt' (show k < 2 ^ 32 by omega), uint32, if_pos h]

theorem daySeconds_eq {n : ℕ} (h : n ≤ 366) : daySeconds n = some (86400 * n) := by
  have h1 : int32 (n * 24) = some (n * 24) := if_pos (by omega)
  have h2 : int32 (n * 24 * 60) = some (n * 24 * 60) := if_pos (by omega)
  have h3 : int32 (n * 24 * 60 * 60) = some (n * 24 * 60 * 60) := if_pos (by omega)
  simp only [daySeconds, h1, h2, h3, Option.bind_eq_bind, Option.bind_some]
  congr 1
  omega

theorem monthDays_le (y m : ℕ) : monthDays y m ≤ 31 := by
  unfold monthDays
  split
  · split <;> decide
  all_goals decide

theorem yearDays_le (y : ℕ) : yearDays y ≤ 366 := by
  unfold yearDays
  split <;> decide

/-- The checked steps from the days on. -/
theorem checked_clock {k h m s : ℕ} (hh : h < 24) (hm : m < 60)
    (hge : 8 * 3600 ≤ k + 3600 * h + 60 * m + s) (hlt : k + 3600 * h + 60 * m + s < 2 ^ 32) :
    (do
      let t ← int32 (h * 60)
      let t ← int32 (t * 60)
      let hours ← uint32 ((UInt32.ofNat k).toNat + t)
      let t ← int32 (m * 60)
      let minutes ← uint32 (hours.toNat + t)
      let seconds ← uint32 (minutes.toNat + s)
      if 8 * 3600 ≤ seconds.toNat then some (seconds - 8 * 3600) else none) =
      some (.ofNat (k + 3600 * h + 60 * m + s) - 8 * 3600) := by
  have h1 : int32 (h * 60) = some (h * 60) := if_pos (by omega)
  have h2 : int32 (h * 60 * 60) = some (h * 60 * 60) := if_pos (by omega)
  have h3 : int32 (m * 60) = some (m * 60) := if_pos (by omega)
  have h4 := @uint32_add k (h * 60 * 60) (by omega)
  have h5 := @uint32_add (k + h * 60 * 60) (m * 60) (by omega)
  have h6 := @uint32_add (k + h * 60 * 60 + m * 60) s (by omega)
  have hsum : k + h * 60 * 60 + m * 60 + s = k + 3600 * h + 60 * m + s := by omega
  simp only [h1, h2, h3, h4, h5, h6, Option.bind_eq_bind, Option.bind_some, hsum]
  rw [UInt32.toNat_ofNat_of_lt' hlt, if_pos hge]

section loops
variable {a n : ℕ} {f : ℕ → ℕ}

/-- A loop that adds days. -/
theorem foldl_days {g : UInt32 → ℕ → UInt32}
    (hg : ∀ k i, i < n → g (.ofNat k) (a + i) = .ofNat (k + 86400 * f i)) (k : ℕ) :
    (List.range' a n).foldl g (.ofNat k) =
      .ofNat (k + 86400 * ∑ i ∈ Finset.range n, f i) := by
  induction n with
  | zero => simp
  | succ n ih =>
      rw [List.range'_1_concat, List.foldl_append, ih fun k i hi => hg k i (by omega),
        List.foldl_cons, hg _ n (by omega), Finset.sum_range_succ, Nat.mul_add, Nat.add_assoc]
      rfl

/-- The same loop with checked steps, as long as the sum fits. -/
theorem foldlM_days {g : UInt32 → ℕ → Option UInt32}
    (hg : ∀ k i, i < n → k + 86400 * f i < 2 ^ 32 →
      g (.ofNat k) (a + i) = some (.ofNat (k + 86400 * f i)))
    (k : ℕ) (h : k + 86400 * ∑ i ∈ Finset.range n, f i < 2 ^ 32) :
    (List.range' a n).foldlM g (.ofNat k) =
      some (.ofNat (k + 86400 * ∑ i ∈ Finset.range n, f i)) := by
  induction n with
  | zero => simp
  | succ n ih =>
      rw [Finset.sum_range_succ, Nat.mul_add, ← Nat.add_assoc] at h ⊢
      rw [List.range'_1_concat, List.foldlM_append, ih (fun k i hi => hg k i (by omega)) (by omega)]
      exact (congrArg (· >>= pure) (hg _ n (by omega) h)).trans rfl

end loops

/-- Days and seconds of the clock, since 1970 in UTC+8. -/
def rtcSeconds (cal : CalendarCal) (time : CalendarTime) : ℕ :=
  86400 * cal.toDate.days 1970 + time.secondOfDay

section valid
variable {cal : CalendarCal} {time : CalendarTime}

/-- The first day of the clock. -/
theorem days_first : (⟨2000, 1, 1⟩ : Date).days 1970 = 10957 := by decide +kernel

/-- The day after its last. -/
theorem days_end : (⟨2100, 1, 1⟩ : Date).days 1970 = 47482 := by decide +kernel

theorem days_bounds (h : cal.toDate.Valid) (hy : cal.year.toNat ≤ 99) :
    10957 ≤ cal.toDate.days 1970 ∧ cal.toDate.days 1970 < 47482 := by
  have he : 1970 ≤ cal.toDate.year := by
    change 1970 ≤ 2000 + _
    omega
  constructor
  · rcases Date.before_or_eq ⟨2000, 1, 1⟩ cal.toDate with hlt | heq | hlt
    · rw [← days_first]
      exact Nat.le_of_lt (Date.days_lt (by decide) (by decide) hlt)
    · rw [← heq, days_first]
    · have hm := h.month_pos
      have hd := h.day_pos
      simp only [Date.Before, CalendarCal.toDate] at hlt hm hd
      omega
  · rw [← days_end]
    refine Date.days_lt h he (.inl ?_)
    change 2000 + _ < 2100
    omega

theorem secondOfDay_lt (h : RtcValid cal time) : time.secondOfDay < 86400 := by
  obtain ⟨-, -, h1, h2, h3⟩ := h
  unfold CalendarTime.secondOfDay
  omega

theorem rtcSeconds_eq : rtcSeconds cal time =
    86400 * ∑ i ∈ Finset.range (30 + cal.year.toNat), yearDays (1970 + i) +
      86400 * ∑ i ∈ Finset.range (cal.mon.toNat - 1), monthDays (2000 + cal.year.toNat) (i + 1) +
      86400 * (cal.date.toNat - 1) + 3600 * time.hour.toNat + 60 * time.min.toNat +
      time.sec.toNat := by
  have hyears : 2000 + cal.year.toNat - 1970 = 30 + cal.year.toNat := by omega
  simp only [rtcSeconds, Date.days, Date.dayOfYear, CalendarCal.toDate, CalendarTime.secondOfDay,
    hyears]
  omega

theorem fullYear_eq (cal : CalendarCal) :
    (2000 : UInt16) + .ofNat cal.year.toNat = .ofNat (2000 + cal.year.toNat) ∧
      (UInt16.ofNat (2000 + cal.year.toNat)).toNat = 2000 + cal.year.toNat := by
  have hy := cal.year.isLt
  exact ⟨(UInt16.ofNat_add ..).symm, UInt16.toNat_ofNat_of_lt' (show _ < 65536 by omega)⟩

/-- The function computes the seconds of the clock, less eight hours. -/
theorem xTimeRTCToUTC_eq (h : RtcValid cal time) :
    xTimeRTCToUTC cal time = .ofNat (rtcSeconds cal time) - 8 * 3600 := by
  obtain ⟨hyear, htoNat⟩ := fullYear_eq cal
  have hn : 2000 + cal.year.toNat - 1970 = 30 + cal.year.toNat := by omega
  have hy := h.year
  have hm : cal.mon.toNat ≤ 12 := h.date.month_le
  have hd : 1 ≤ cal.date.toNat := h.date.day_pos
  have hyears := foldl_days (a := 1970) (n := 30 + cal.year.toNat)
    (f := fun i => yearDays (1970 + i))
    (g := fun seconds y =>
      seconds + (if isLeapYear (.ofNat y) then 366 else 365) * 24 * 60 * 60)
    (fun k i hi => by
      rw [← add_days, yearDays_eq (by omega)]
      split <;> rfl) 0
  have hmonths := foldl_days (a := 1) (n := cal.mon.toNat - 1)
    (f := fun i => monthDays (2000 + cal.year.toNat) (i + 1))
    (g := fun seconds m =>
      seconds + (daysOf (.ofNat (2000 + cal.year.toNat)) m).toUInt32 * 24 * 60 * 60)
    (fun k i hi => by
      rw [← add_days, Nat.add_comm 1 i,
        ← daysOf_eq (show 2000 + cal.year.toNat < 2 ^ 16 by omega) (by omega)
          (show i + 1 ≤ 12 by omega), UInt32.ofNat_uInt8ToNat])
    (0 + 86400 * ∑ i ∈ Finset.range (30 + cal.year.toNat), yearDays (1970 + i))
  have hday : UInt32.ofNat cal.date.toNat - 1 = .ofNat (cal.date.toNat - 1) := by
    obtain ⟨k, hk⟩ : ∃ k, cal.date.toNat = k + 1 := ⟨cal.date.toNat - 1, by omega⟩
    rw [hk, UInt32.ofNat_add, Nat.add_sub_cancel]
    exact add_sub_cancel_right _ _
  rw [xTimeRTCToUTC]
  simp only [hyear, htoNat, hn]
  rw [show (0 : UInt32) = .ofNat 0 from rfl, hyears, hmonths, hday, add_days, add_hours,
    add_minutes, ← UInt32.ofNat_add, rtcSeconds_eq, Nat.zero_add]

/-- No step of the function overflows. -/
theorem xTimeRTCToUTCChecked_eq (h : RtcValid cal time) :
    xTimeRTCToUTCChecked cal time = some (xTimeRTCToUTC cal time) := by
  obtain ⟨hyear, htoNat⟩ := fullYear_eq cal
  obtain ⟨hge, hlt⟩ := days_bounds h.date h.year
  have hn : 2000 + cal.year.toNat - 1970 = 30 + cal.year.toNat := by omega
  have hy := h.year
  have hm : cal.mon.toNat ≤ 12 := h.date.month_le
  have hsec := secondOfDay_lt h
  have htotal := @rtcSeconds_eq cal time
  have hsum : rtcSeconds cal time = 86400 * cal.toDate.days 1970 + time.secondOfDay := rfl
  have hyears := foldlM_days (a := 1970) (n := 30 + cal.year.toNat)
    (f := fun i => yearDays (1970 + i))
    (g := fun (seconds : UInt32) y => do
      let t ← daySeconds (if isLeapYear (.ofNat y) then 366 else 365)
      uint32 (seconds.toNat + t))
    (fun k i hi hk => by
      rw [← yearDays_eq (by omega), daySeconds_eq (yearDays_le _)]
      exact uint32_add hk) 0 (by omega)
  have hmonths := foldlM_days (a := 1) (n := cal.mon.toNat - 1)
    (f := fun i => monthDays (2000 + cal.year.toNat) (i + 1))
    (g := fun (seconds : UInt32) m => do
      let t ← daySeconds (daysOf (.ofNat (2000 + cal.year.toNat)) m).toNat
      uint32 (seconds.toNat + t))
    (fun k i hi hk => by
      rw [Nat.add_comm 1 i, daysOf_eq (show 2000 + cal.year.toNat < 2 ^ 16 by omega) (by omega)
          (show i + 1 ≤ 12 by omega), daySeconds_eq ((monthDays_le ..).trans (by decide))]
      exact uint32_add hk)
    (0 + 86400 * ∑ i ∈ Finset.range (30 + cal.year.toNat), yearDays (1970 + i)) (by omega)
  have hday : daySeconds (cal.date.toNat - 1) = some (86400 * (cal.date.toNat - 1)) := by
    have := cal.date.isLt
    exact daySeconds_eq (by omega)
  rw [xTimeRTCToUTC_eq h, xTimeRTCToUTCChecked, htotal]
  simp only [hyear, htoNat, hn]
  rw [show (0 : UInt32) = .ofNat 0 from rfl, hyears, Option.bind_eq_bind, Option.bind_some, hmonths,
    Option.bind_some, hday]
  rw [Nat.zero_add]
  generalize 86400 * ∑ i ∈ Finset.range (30 + cal.year.toNat), yearDays (1970 + i) = y at *
  generalize 86400 * ∑ i ∈ Finset.range (cal.mon.toNat - 1),
    monthDays (2000 + cal.year.toNat) (i + 1) = m at *
  have hdays := @uint32_add (y + m) (86400 * (cal.date.toNat - 1)) (by omega)
  have hclock := checked_clock h.hour h.min
    (k := y + m + 86400 * (cal.date.toNat - 1)) (s := time.sec.toNat) (by omega) (by omega)
  rw [← hclock]
  simp only [Option.bind_eq_bind, Option.bind_some, hdays]

theorem rtcSeconds_bounds (h : RtcValid cal time) :
    28800 ≤ rtcSeconds cal time ∧ rtcSeconds cal time < 2 ^ 32 := by
  obtain ⟨hge, hlt⟩ := days_bounds h.date h.year
  have hsec := secondOfDay_lt h
  unfold rtcSeconds
  omega

/-- Nothing is lost in the last subtraction. -/
theorem toNat_xTimeRTCToUTC (h : RtcValid cal time) :
    (xTimeRTCToUTC cal time).toNat = rtcSeconds cal time - 28800 := by
  obtain ⟨hge, hlt⟩ := rtcSeconds_bounds h
  have htoNat : (UInt32.ofNat (rtcSeconds cal time)).toNat = rtcSeconds cal time :=
    UInt32.toNat_ofNat_of_lt' hlt
  have hle : (8 * 3600 : UInt32) ≤ .ofNat (rtcSeconds cal time) := by
    rw [UInt32.le_iff_toNat_le, htoNat]
    exact hge
  rw [xTimeRTCToUTC_eq h, UInt32.toNat_sub_of_le _ _ hle, htoNat]
  rfl

theorem rtcSeconds_lt {cal' : CalendarCal} {time' : CalendarTime} (h : RtcValid cal time)
    (h' : RtcValid cal' time') (hlt : RtcBefore cal cal' time time') :
    rtcSeconds cal time < rtcSeconds cal' time' := by
  have hsec := secondOfDay_lt h
  have he : 1970 ≤ cal.toDate.year := by
    change 1970 ≤ 2000 + _
    omega
  obtain ⟨hdate, -, -, hmin, hs⟩ := h
  obtain ⟨-, -, -, hmin', hs'⟩ := h'
  simp only [rtcSeconds]
  rcases hlt with hbefore | ⟨heq, htime⟩
  · have hdays := Date.days_lt hdate he hbefore
    omega
  · rw [heq]
    simp only [CalendarTime.secondOfDay]
    omega

end valid

/-! ### Setting the clock and reading it -/

theorem toNat_ofInt8 {x : ℤ} {n : ℕ} (hx : x = n) (hn : n < 2 ^ 8) : (UInt8.ofInt x).toNat = n := by
  have hmod : (x % 2 ^ 8).toNat = n := by omega
  rw [UInt8.ofInt, hmod]
  exact UInt8.toNat_ofNat_of_lt' hn

theorem toNat_ofInt16 {x : ℤ} {n : ℕ} (hx : x = n) (hn : n < 2 ^ 16) :
    (UInt16.ofInt x).toNat = n := by
  have hmod : (x % 2 ^ 16).toNat = n := by omega
  rw [UInt16.ofInt, hmod]
  exact UInt16.toNat_ofNat_of_lt' hn

/-- The date of the clock at an epoch second. -/
def rtcDate (utc : UInt64) : Date := dateOfDay 1970 ((utc.toNat + 28800) / 86400)

/-- The fields that `x_rtc_set` writes, when each value has its range. -/
theorem xRtcSet_fields {year : UInt16} {month day hour minute second : UInt8} (week : UInt8)
    (hdate : (⟨2000 + year.toNat, month.toNat, day.toNat⟩ : Date).Valid) (hyear : year.toNat ≤ 99)
    (hhour : hour.toNat < 24) (hmin : minute.toNat < 60) (hsec : second.toNat < 60) :
    let r := xRtcSet year month day hour minute second week
    RtcValid r.1 r.2 ∧ r.1.toDate = ⟨2000 + year.toNat, month.toNat, day.toNat⟩ ∧
      r.2.secondOfDay = 3600 * hour.toNat + 60 * minute.toNat + second.toNat := by
  intro r
  have hmonth : month.toNat ≤ 12 := hdate.month_le
  have hday : day.toNat ≤ 31 := hdate.day_le.trans (monthDays_le ..)
  have hmod : (year % 100).toNat = year.toNat := by
    rw [UInt16.toNat_mod]
    exact Nat.mod_eq_of_lt (show year.toNat < 100 by omega)
  have hy : r.1.year.toNat = year.toNat := by
    simp only [r, xRtcSet, BitVec.toNat_ofNat, hmod]
    omega
  have htoDate : r.1.toDate = ⟨2000 + year.toNat, month.toNat, day.toNat⟩ := by
    simp only [r, xRtcSet, CalendarCal.toDate, BitVec.toNat_ofNat, hmod, Date.mk.injEq]
    omega
  have htime : r.2.hour.toNat = hour.toNat ∧ r.2.min.toNat = minute.toNat ∧
      r.2.sec.toNat = second.toNat := by
    simp only [r, xRtcSet, BitVec.toNat_ofNat]
    omega
  obtain ⟨hh, hm, hs⟩ := htime
  refine ⟨⟨htoDate ▸ hdate, ?_, ?_, ?_, ?_⟩, htoDate, ?_⟩
  · rwa [hy]
  · rwa [hh]
  · rwa [hm]
  · rwa [hs]
  · rw [CalendarTime.secondOfDay, hh, hm, hs]

/-- The values that `x_time_UTC_ToRTC` passes on, for a date of the clock and a second `t`. -/
theorem xRtcSet_tm {d : Date} (hv : d.Valid) (h : 2000 ≤ d.year) (h' : d.year ≤ 2099) (t : ℕ)
    (week : UInt8) :
    let r := xRtcSet (.ofInt ((d.year : ℤ) - 1900 - 100)) (.ofInt ((d.month : ℤ) - 1 + 1))
      (.ofInt d.day) (.ofInt ((t : ℤ) / 3600 % 24)) (.ofInt ((t : ℤ) / 60 % 60))
      (.ofInt ((t : ℤ) % 60)) week
    RtcValid r.1 r.2 ∧ r.1.toDate = d ∧ r.2.secondOfDay = t % 86400 := by
  have hm := hv.month_le
  have hd := hv.day_le.trans (monthDays_le ..)
  have hyear := @toNat_ofInt16 ((d.year : ℤ) - 1900 - 100) (d.year - 2000) (by omega) (by omega)
  have hmonth := @toNat_ofInt8 ((d.month : ℤ) - 1 + 1) d.month (by omega) (by omega)
  have hday := @toNat_ofInt8 (d.day : ℤ) d.day rfl (by omega)
  have hhour := @toNat_ofInt8 ((t : ℤ) / 3600 % 24) (t / 3600 % 24) (by omega) (by omega)
  have hmin := @toNat_ofInt8 ((t : ℤ) / 60 % 60) (t / 60 % 60) (by omega) (by omega)
  have hsec := @toNat_ofInt8 ((t : ℤ) % 60) (t % 60) (by omega) (by omega)
  have hyears : 2000 + (d.year - 2000) = d.year := by omega
  have hfields := @xRtcSet_fields (.ofInt ((d.year : ℤ) - 1900 - 100))
    (.ofInt ((d.month : ℤ) - 1 + 1)) (.ofInt d.day) (.ofInt ((t : ℤ) / 3600 % 24))
    (.ofInt ((t : ℤ) / 60 % 60)) (.ofInt ((t : ℤ) % 60)) week
  rw [hyear, hmonth, hday, hhour, hmin, hsec, hyears] at hfields
  obtain ⟨hvalid, hdate, htime⟩ := hfields hv (by omega) (Nat.mod_lt _ (by decide))
    (Nat.mod_lt _ (by decide)) (Nat.mod_lt _ (by decide))
  refine ⟨hvalid, hdate, htime.trans ?_⟩
  omega

section conversion
variable {utc : UInt64}

theorem lt_of_rtcDate (h : (rtcDate utc).year ≤ 2099) : utc.toNat + 28800 < 2 ^ 32 := by
  have hend := days_end
  obtain ⟨hv, he, hn⟩ := days_dateOfDay 1970 ((utc.toNat + 28800) / 86400)
  have hlt := @Date.days_lt _ ⟨2100, 1, 1⟩ 1970 hv he (.inl (Nat.lt_succ_of_le h))
  omega

/-- Setting the clock writes the date and the second of the day. -/
theorem xTimeUTCToRTC_fields (h : 2000 ≤ (rtcDate utc).year) (h' : (rtcDate utc).year ≤ 2099) :
    let r := xTimeUTCToRTC utc
    RtcValid r.1 r.2 ∧ r.1.toDate = rtcDate utc ∧
      r.2.secondOfDay = (utc.toNat + 28800) % 86400 := by
  have hlt := lt_of_rtcDate h'
  have h8 : (8 * 3600 : UInt64).toNat = 28800 := by decide
  have hsum : (utc + 8 * 3600).toNat = utc.toNat + 28800 := by
    rw [UInt64.toNat_add, h8]
    exact Nat.mod_eq_of_lt (by omega)
  obtain ⟨hv, -, -⟩ := days_dateOfDay 1970 ((utc.toNat + 28800) / 86400)
  rw [xTimeUTCToRTC, localtime, hsum]
  exact xRtcSet_tm hv h h' _ _

/-- The clock stands at the second it was set to. -/
theorem rtcSeconds_xTimeUTCToRTC (h : 2000 ≤ (rtcDate utc).year)
    (h' : (rtcDate utc).year ≤ 2099) :
    rtcSeconds (xTimeUTCToRTC utc).1 (xTimeUTCToRTC utc).2 = utc.toNat + 28800 := by
  obtain ⟨-, hdate, hsec⟩ := xTimeUTCToRTC_fields h h'
  obtain ⟨-, -, hdays⟩ := days_dateOfDay 1970 ((utc.toNat + 28800) / 86400)
  rw [rtcSeconds, hdate, hsec, rtcDate, hdays]
  omega

end conversion

/-- Of the dates and times of the years 2000 to 2099, the function gives the epoch second: the days
since the first of January 1970, the time, and less eight hours; no step of it overflows.  A later
time gives a larger second.  Setting the clock to an epoch second and reading it gives the same
second. -/
theorem calendar_conversion :
    (∀ cal time, RtcValid cal time →
      (xTimeRTCToUTC cal time).toNat + 28800 =
        86400 * cal.toDate.days 1970 + 3600 * time.hour.toNat + 60 * time.min.toNat +
          time.sec.toNat ∧
      dateOfDay 1970 (cal.toDate.days 1970) = cal.toDate ∧
      xTimeRTCToUTCChecked cal time = some (xTimeRTCToUTC cal time)) ∧
    (∀ cal cal' time time', RtcValid cal time → RtcValid cal' time' →
      RtcBefore cal cal' time time' → xTimeRTCToUTC cal time < xTimeRTCToUTC cal' time') ∧
    (∀ utc, 2000 ≤ (rtcDate utc).year → (rtcDate utc).year ≤ 2099 →
      (xTimeRTCToUTC (xTimeUTCToRTC utc).1 (xTimeUTCToRTC utc).2).toNat = utc.toNat) := by
  refine ⟨fun cal time h => ⟨?_, ?_, xTimeRTCToUTCChecked_eq h⟩,
    fun cal cal' time time' h h' hlt => ?_, fun utc h h' => ?_⟩
  · obtain ⟨hge, -⟩ := rtcSeconds_bounds h
    rw [toNat_xTimeRTCToUTC h, Nat.sub_add_cancel hge, rtcSeconds, CalendarTime.secondOfDay]
    omega
  · exact dateOfDay_days h.date (show 1970 ≤ 2000 + _ by omega)
  · obtain ⟨hge, -⟩ := rtcSeconds_bounds h
    have hseconds := rtcSeconds_lt h h' hlt
    rw [UInt32.lt_iff_toNat_lt, toNat_xTimeRTCToUTC h, toNat_xTimeRTCToUTC h']
    omega
  · obtain ⟨hv, -, -⟩ := xTimeUTCToRTC_fields h h'
    rw [toNat_xTimeRTCToUTC hv, rtcSeconds_xTimeUTCToRTC h h', Nat.add_sub_cancel]

/-- Noon of the leap day of 2000, the day after it, and the first second of 2000. -/
theorem calendar_conversion_leapDay :
    (xTimeRTCToUTC ⟨29, 2, 0⟩ ⟨0, 0, 12, 2⟩).toNat + 28800 =
        86400 * Date.days 1970 ⟨2000, 2, 29⟩ + 3600 * 12 + 60 * 0 + 0 ∧
      xTimeRTCToUTC ⟨29, 2, 0⟩ ⟨0, 0, 12, 2⟩ < xTimeRTCToUTC ⟨1, 3, 0⟩ ⟨0, 0, 0, 3⟩ ∧
      (xTimeRTCToUTC (xTimeUTCToRTC 946656000).1 (xTimeUTCToRTC 946656000).2).toNat =
        946656000 := by
  have hleap : RtcValid ⟨29, 2, 0⟩ ⟨0, 0, 12, 2⟩ :=
    ⟨by decide, by decide, by decide, by decide, by decide⟩
  have hmarch : RtcValid ⟨1, 3, 0⟩ ⟨0, 0, 0, 3⟩ :=
    ⟨by decide, by decide, by decide, by decide, by decide⟩
  have hfirst : rtcDate 946656000 = ⟨2000, 1, 1⟩ := by
    rw [← dateOfDay_days (d := ⟨2000, 1, 1⟩) (e := 1970) (by decide) (by decide), days_first]
    rfl
  obtain ⟨hvalue, hlt, hback⟩ := calendar_conversion
  exact ⟨(hvalue _ _ hleap).1, hlt _ _ _ _ hleap hmarch (.inl (.inr ⟨rfl, .inl (by decide)⟩)),
    hback _ (hfirst ▸ by decide) (hfirst ▸ by decide)⟩

end ErgoDock
