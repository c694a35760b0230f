import ErgoDock.Lsi
import ErgoDock.Rtc

/-! # The time of day on the low-speed oscillator (`ls_hal_rtc.c`)

The registers of the clock count seconds of 32768 cycles of an oscillator that is too fast or too
slow.  `RTC_CalendarGet` therefore adds to the time it showed last what the registers have gone on
since, corrected by the latest measurement of the oscillator, and carries the fraction of a second
to the next call.

A run of waits and reads from `RTC_CalendarSet` on is a `ClockRun`: what is shown is the time that
was set and the corrected seconds since, rounded down once and not at every read
(`clock_keeps_time`).  A second may pass between any two accesses to the registers. -/

namespace ErgoDock

open Calendar

/-! ### The registers -/

/-- `RTC->CAL`. -/
structure RtcCal where
  yearT : BitVec 4
  yearU : BitVec 4
  monT : BitVec 1
  monU : BitVec 4
  dateT : BitVec 2
  dateU : BitVec 4
deriving DecidableEq

/-- `RTC->TIME`. -/
structure RtcTime where
  week : BitVec 3
  hourT : BitVec 2
  hourU : BitVec 4
  minT : BitVec 3
  minU : BitVec 4
  secT : BitVec 3
  secU : BitVec 4
deriving DecidableEq

/-- The digits `RTC_CalendarSet` writes. -/
def RtcCal.ofFields (cal : CalendarCal) : RtcCal where
  yearT := .ofNat 4 (cal.year.toNat / 10 % 100)
  yearU := .ofNat 4 (cal.year.toNat % 100 % 10)
  monT := .ofNat 1 (cal.mon.toNat / 10)
  monU := .ofNat 4 (cal.mon.toNat % 10)
  dateT := .ofNat 2 (cal.date.toNat / 10)
  dateU := .ofNat 4 (cal.date.toNat % 10)

def RtcTime.ofFields (time : CalendarTime) : RtcTime where
  week := time.week
  hourT := .ofNat 2 (time.hour.toNat / 10)
  hourU := .ofNat 4 (time.hour.toNat % 10)
  minT := .ofNat 3 (time.min.toNat / 10)
  minU := .ofNat 4 (time.min.toNat % 10)
  secT := .ofNat 3 (time.sec.toNat / 10)
  secU := .ofNat 4 (time.sec.toNat % 10)

/-- The fields `RTC_CalendarGet` reads. -/
def RtcCal.fields (r : RtcCal) : CalendarCal where
  date := .ofNat 5 (r.dateT.toNat * 10 + r.dateU.toNat)
  mon := .ofNat 4 (r.monT.toNat * 10 + r.monU.toNat)
  year := .ofNat 7 (r.yearT.toNat * 10 + r.yearU.toNat)

def RtcTime.fields (r : RtcTime) : CalendarTime where
  sec := .ofNat 6 (r.secT.toNat * 10 + r.secU.toNat)
  min := .ofNat 6 (r.minT.toNat * 10 + r.minU.toNat)
  hour := .ofNat 5 (r.hourT.toNat * 10 + r.hourU.toNat)
  week := r.week

/-- The clock, and what is kept of it in `SYSCFG->BKD[2]` to `[5]`. -/
structure RtcDevice where
  cal : RtcCal
  time : RtcTime
  initCal : CalendarCal
  initTime : CalendarTime
  rawVal : UInt32
  remainder : UInt32

/-- The seconds the registers show. -/
def RtcDevice.seconds (s : RtcDevice) : ℕ := rtcSeconds s.cal.fields s.time.fields

/-- The fields of a second. -/
def calendarAt (n : ℕ) : CalendarCal :=
  let d := dateOfDay 1970 (n / 86400)
  ⟨.ofNat 5 d.day, .ofNat 4 d.month, .ofNat 7 (d.year - 2000)⟩

def timeAt (n : ℕ) (week : BitVec 3) : CalendarTime :=
  ⟨.ofNat 6 (n % 60), .ofNat 6 (n / 60 % 60), .ofNat 5 (n / 3600 % 24), week⟩

/-- The clock goes on by `k` seconds of its own; `nextWeek` is what it does to the day of the week
at midnight. -/
def RtcDevice.advance (nextWeek : BitVec 3 → BitVec 3) (k : ℕ) (s : RtcDevice) : RtcDevice :=
  let n := s.seconds + k
  { s with
    cal := .ofFields (calendarAt n)
    time := .ofFields (timeAt n (nextWeek^[n / 86400 - s.seconds / 86400] s.time.week)) }

/-! ### The functions -/

/-- `mktime` of the C library, with UTC as the local time, for the years from 1970 on. -/
def mktime (tm : Tm) : ℤ :=
  86400 * ((Date.days 1970
    ⟨(tm.tmYear + 1900 + tm.tmMon / 12).toNat, (tm.tmMon % 12 + 1).toNat, 1⟩ +
      (tm.tmMday - 1))) + 3600 * tm.tmHour + 60 * tm.tmMin + tm.tmSec

/-- The `struct tm` filled in from the fields. -/
def tmOfFields (cal : CalendarCal) (time : CalendarTime) : Tm where
  tmSec := time.sec.toNat
  tmMin := time.min.toNat
  tmHour := time.hour.toNat
  tmMday := cal.date.toNat
  tmMon := cal.mon.toNat - 1
  tmYear := cal.year.toNat + 2000 - 1900
  tmWday := 0

/-- `RTC_CalendarSet`. -/
def rtcCalendarSet (cal : CalendarCal) (time : CalendarTime) : RtcDevice where
  cal := .ofFields cal
  time := .ofFields time
  initCal := cal
  initTime := time
  rawVal := UInt32.ofInt (mktime (tmOfFields cal time))
  remainder := 0

/-- The loop that reads `RTC->TIME` and `RTC->CAL`, for at most `rounds` rounds; `lag i` seconds of
the clock pass before its access `i`. -/
def rtcReadRegs (nextWeek : BitVec 3 → BitVec 3) :
    ℕ → (ℕ → ℕ) → RtcDevice → Option (RtcCal × RtcTime × RtcDevice)
  | 0, _, _ => none
  | rounds + 1, lag, s =>
    let s₁ := s.advance nextWeek (lag 0)
    let s₂ := s₁.advance nextWeek (lag 1)
    let s₃ := s₂.advance nextWeek (lag 2)
    if s₃.time ≠ s₁.time then rtcReadRegs nextWeek rounds (fun i => lag (i + 3)) s₃
    else some (s₂.cal, s₁.time, s₃)

/-- `LSI_CNT_CYCLES * 1000000`. -/
def lsiSecond : UInt32 := 1500000000

/-- `delta_seconds_counting` and `prev_remainder`, from the seconds the registers have gone on. -/
def correctedSeconds (delta : UInt32) (lsiCntVal : UInt16) (remainder : UInt32) :
    UInt32 × UInt32 :=
  let q := div6432 (delta.toUInt64 * 32768 * lsiCntVal.toUInt64) lsiSecond
  let remainder := remainder + q.2
  if remainder ≥ lsiSecond then (q.1.toUInt32 + 1, remainder - lsiSecond)
  else (q.1.toUInt32, remainder)

/-- The fields `RTC_CalendarGet` fills in from a `struct tm`. -/
def fieldsOfTm (tm : Tm) : CalendarCal × CalendarTime :=
  (⟨.ofInt 5 tm.tmMday, .ofInt 4 (tm.tmMon + 1), .ofInt 7 (tm.tmYear + 1900 - 2000)⟩,
    ⟨.ofInt 6 tm.tmSec, .ofInt 6 tm.tmMin, .ofInt 5 tm.tmHour,
      .ofInt 3 (if tm.tmWday = 0 then 7 else tm.tmWday)⟩)

/-- `RTC_CalendarGet`: what it shows, and the device. -/
def rtcCalendarGet (nextWeek : BitVec 3 → BitVec 3) (rounds : ℕ) (lag : ℕ → ℕ)
    (lsiCntVal : UInt16) (s : RtcDevice) :
    Option ((CalendarCal × CalendarTime) × RtcDevice) := do
  let (regCal, regTime, s) ← rtcReadRegs nextWeek rounds lag s
  let prevTime := mktime (tmOfFields s.initCal s.initTime)
  let curTime := mktime (tmOfFields regCal.fields regTime.fields)
  let delta := UInt32.ofInt (curTime - s.rawVal.toNat)
  let (seconds, remainder) := correctedSeconds delta lsiCntVal s.remainder
  let shown := fieldsOfTm (localtime (prevTime + seconds.toNat).toNat)
  some (shown, { s with
    initCal := shown.1
    initTime := shown.2
    rawVal := UInt32.ofInt curTime
    remainder := remainder })

/-! ### What the registers show -/

/-- Two digits are read as they were written. -/
theorem ofNat_digits {w a : ℕ} (x : BitVec w) (h : x.toNat / 10 < 2 ^ a) :
    BitVec.ofNat w ((BitVec.ofNat a (x.toNat / 10)).toNat * 10 +
      (BitVec.ofNat 4 (x.toNat % 10)).toNat) = x := by
  apply BitVec.eq_of_toNat_eq
  rw [BitVec.toNat_ofNat, BitVec.toNat_ofNat, BitVec.toNat_ofNat, Nat.mod_eq_of_lt h,
    Nat.mod_eq_of_lt (show x.toNat % 10 < 2 ^ 4 by omega), Nat.div_add_mod',
    Nat.mod_eq_of_lt x.isLt]

@[simp] theorem RtcCal.fields_ofFields (cal : CalendarCal) :
    (RtcCal.ofFields cal).fields = cal := by
  have hd := cal.date.isLt
  have hm := cal.mon.isLt
  have hy := cal.year.isLt
  have hyear : cal.year.toNat / 10 % 100 = cal.year.toNat / 10 ∧
      cal.year.toNat % 100 % 10 = cal.year.toNat % 10 := by omega
  simp only [RtcCal.fields, RtcCal.ofFields, hyear]
  rw [ofNat_digits cal.date (by omega), ofNat_digits cal.mon (by omega),
    ofNat_digits cal.year (by omega)]

@[simp] theorem RtcTime.fields_ofFields (time : CalendarTime) :
    (RtcTime.ofFields time).fields = time := by
  have hs := time.sec.isLt
  have hm := time.min.isLt
  have hh := time.hour.isLt
  simp only [RtcTime.fields, RtcTime.ofFields]
  rw [ofNat_digits time.sec (by omega), ofNat_digits time.min (by omega),
    ofNat_digits time.hour (by omega)]

/-- The first second after the years of the clock. -/
def rtcEnd : ℕ := 86400 * 47482

theorem rtcSeconds_lt_end {cal : CalendarCal} {time : CalendarTime} (h : RtcValid cal time) :
    86400 * 10957 ≤ rtcSeconds cal time ∧ rtcSeconds cal time < rtcEnd := by
  obtain ⟨hge, hlt⟩ := days_bounds h.date h.year
  have hsec := secondOfDay_lt h
  unfold rtcSeconds rtcEnd
  omega

theorem seconds_div {cal : CalendarCal} {time : CalendarTime} (h : RtcValid cal time) :
    rtcSeconds cal time / 86400 = cal.toDate.days 1970 ∧
      rtcSeconds cal time % 86400 = time.secondOfDay := by
  have hsec := secondOfDay_lt h
  unfold rtcSeconds
  omega

/-- The day of the week of a second, from Monday, 1, to Sunday, 7. -/
def weekdayAt (n : ℕ) : ℕ := if (n / 86400 + 4) % 7 = 0 then 7 else (n / 86400 + 4) % 7

section At

variable {n : ℕ}

theorem year_dateOfDay (hge : 10957 ≤ n) (hlt : n < 47482) :
    2000 ≤ (dateOfDay 1970 n).year ∧ (dateOfDay 1970 n).year ≤ 2099 := by
  obtain ⟨hv, he, hdays⟩ := days_dateOfDay 1970 n
  have hmonth := hv.month_pos
  have hday := hv.day_pos
  constructor
  · by_contra hyear
    have h := @Date.days_lt _ ⟨2000, 1, 1⟩ 1970 hv he (.inl (show _ < 2000 by omega))
    rw [days_first, hdays] at h
    omega
  · rcases Date.before_or_eq (dateOfDay 1970 n) ⟨2100, 1, 1⟩ with h | h | h
    · simp only [Date.Before] at h
      omega
    · rw [h, days_end] at hdays
      omega
    · have h := @Date.days_lt ⟨2100, 1, 1⟩ _ 1970 (by decide) (by decide) h
      rw [days_end, hdays] at h
      omega

/-- The fields of a second of the years 2000 to 2099 are that second. -/
theorem fieldsAt_valid (hge : 86400 * 10957 ≤ n) (hlt : n < rtcEnd) (week : BitVec 3) :
    RtcValid (calendarAt n) (timeAt n week) ∧ rtcSeconds (calendarAt n) (timeAt n week) = n := by
  unfold rtcEnd at hlt
  obtain ⟨hv, he, hdays⟩ := days_dateOfDay 1970 (n / 86400)
  obtain ⟨hy, hy'⟩ := @year_dateOfDay (n / 86400) (by omega) (by omega)
  have hm := hv.month_le
  have hd := hv.day_le.trans (monthDays_le ..)
  have hdate : (calendarAt n).toDate = dateOfDay 1970 (n / 86400) := by
    have hyear : 2000 + (dateOfDay 1970 (n / 86400)).year - 2000 =
        (dateOfDay 1970 (n / 86400)).year := by omega
    simp only [CalendarCal.toDate, calendarAt, BitVec.toNat_ofNat]
    rw [Nat.mod_eq_of_lt (by omega), Nat.mod_eq_of_lt (by omega), Nat.mod_eq_of_lt (by omega),
      ← Nat.add_sub_assoc hy, hyear]
  have htime : (timeAt n week).hour.toNat = n / 3600 % 24 ∧
      (timeAt n week).min.toNat = n / 60 % 60 ∧ (timeAt n week).sec.toNat = n % 60 := by
    simp only [timeAt, BitVec.toNat_ofNat]
    omega
  obtain ⟨hh, hmin, hs⟩ := htime
  refine ⟨⟨hdate ▸ hv, ?_, by omega, by omega, by omega⟩, ?_⟩
  · simp only [calendarAt, BitVec.toNat_ofNat]
    omega
  · rw [rtcSeconds, hdate, hdays, CalendarTime.secondOfDay, hh, hmin, hs]
    omega

end At

section Fields

variable {cal : CalendarCal} {time : CalendarTime}

/-- `mktime` gives the seconds of valid fields. -/
theorem mktime_tmOfFields (h : RtcValid cal time) :
    mktime (tmOfFields cal time) = rtcSeconds cal time := by
  have hm := h.date.month_pos
  have hm' := h.date.month_le
  have hd := h.date.day_pos
  simp only [CalendarCal.toDate] at hm hm' hd
  have hyear : ((cal.year.toNat : ℤ) + 2000 - 1900 + 1900 + ((cal.mon.toNat : ℤ) - 1) / 12).toNat =
      2000 + cal.year.toNat := by omega
  have hmonth : (((cal.mon.toNat : ℤ) - 1) % 12 + 1).toNat = cal.mon.toNat := by omega
  have hdays : cal.toDate.days 1970 =
      Date.days 1970 ⟨2000 + cal.year.toNat, cal.mon.toNat, 1⟩ + (cal.date.toNat - 1) := by
    have hyears : 2000 + cal.year.toNat - 1970 = 30 + cal.year.toNat := by omega
    simp only [Date.days, Date.dayOfYear, CalendarCal.toDate, hyears]
    omega
  simp only [mktime, tmOfFields, hyear, hmonth, rtcSeconds, hdays, CalendarTime.secondOfDay]
  push_cast [hd]
  ring

/-- The fields filled in from `localtime`. -/
theorem fieldsOfTm_localtime {n : ℕ} (hge : 86400 * 10957 ≤ n) (hlt : n < rtcEnd) :
    fieldsOfTm (localtime n) = (calendarAt n, timeAt n (.ofNat 3 (weekdayAt n))) := by
  unfold rtcEnd at hlt
  obtain ⟨hv, he, hdays⟩ := days_dateOfDay 1970 (n / 86400)
  obtain ⟨hy, hy'⟩ := @year_dateOfDay (n / 86400) (by omega) (by omega)
  have hmonth : ((dateOfDay 1970 (n / 86400)).month : ℤ) - 1 + 1 =
      (dateOfDay 1970 (n / 86400)).month := by omega
  have hyear : ((dateOfDay 1970 (n / 86400)).year : ℤ) - 1900 + 1900 - 2000 =
      ((dateOfDay 1970 (n / 86400)).year - 2000 : ℕ) := by omega
  simp only [fieldsOfTm, localtime, calendarAt, timeAt, weekdayAt, hmonth, hyear]
  norm_cast

end Fields

/-! ### Reading the registers -/

section Read

variable {nextWeek : BitVec 3 → BitVec 3} {s s' : RtcDevice} {lag : ℕ → ℕ} {rounds k : ℕ}

/-- The registers show a time of the years of the clock. -/
def RtcDevice.Valid (s : RtcDevice) : Prop := RtcValid s.cal.fields s.time.fields

/-- The accesses of a read follow one another within half a day, and before the clock's end. -/
def Prompt (rounds : ℕ) (lag : ℕ → ℕ) (s : RtcDevice) : Prop :=
  (∀ i, lag i < 43200) ∧ s.seconds + ∑ i ∈ Finset.range (3 * rounds), lag i < rtcEnd

theorem sum_lag_succ (rounds : ℕ) (lag : ℕ → ℕ) :
    ∑ i ∈ Finset.range (3 * (rounds + 1)), lag i =
      lag 0 + lag 1 + lag 2 + ∑ i ∈ Finset.range (3 * rounds), lag (i + 3) := by
  rw [Nat.mul_succ, Nat.add_comm (3 * rounds), Finset.sum_range_add]
  simp [Finset.sum_range_succ, Nat.add_comm]

theorem RtcDevice.Valid.advance (h : s.Valid) (nextWeek : BitVec 3 → BitVec 3) (k : ℕ)
    (hk : s.seconds + k < rtcEnd) :
    (s.advance nextWeek k).Valid ∧ (s.advance nextWeek k).seconds = s.seconds + k := by
  have hge : 86400 * 10957 ≤ s.seconds := (rtcSeconds_lt_end h).1
  obtain ⟨hv, hs⟩ := fieldsAt_valid (show 86400 * 10957 ≤ s.seconds + k by omega) hk
    (nextWeek^[(s.seconds + k) / 86400 - s.seconds / 86400] s.time.week)
  simp only [RtcDevice.Valid, RtcDevice.seconds, RtcDevice.advance, RtcCal.fields_ofFields,
    RtcTime.fields_ofFields]
  exact ⟨hv, hs⟩

theorem RtcDevice.Valid.advance_zero (h : s.Valid) (hk : s.seconds + k < rtcEnd) :
    ((s.advance nextWeek k).advance nextWeek 0).time = (s.advance nextWeek k).time := by
  have hs := (h.advance nextWeek k hk).2
  rw [RtcDevice.advance, Nat.add_zero, Nat.sub_self, Function.iterate_zero, id, hs]
  rfl

/-- The digits of the time go around once a day. -/
theorem RtcDevice.Valid.seconds_eq (h : s.Valid) (h' : s'.Valid) (htime : s'.time = s.time)
    (hle : s.seconds ≤ s'.seconds) (hlt : s'.seconds < s.seconds + 86400) :
    s'.seconds = s.seconds := by
  have hmod : s.seconds % 86400 = s.time.fields.secondOfDay := (seconds_div h).2
  have hmod' : s'.seconds % 86400 = s'.time.fields.secondOfDay := (seconds_div h').2
  rw [htime] at hmod'
  omega

/-- A date and a time read within the same second. -/
theorem RtcDevice.Valid.mix (h : s.Valid) (h' : s'.Valid) (heq : s'.seconds = s.seconds) :
    RtcValid s'.cal.fields s.time.fields ∧ rtcSeconds s'.cal.fields s.time.fields = s.seconds := by
  have hv : RtcValid s'.cal.fields s.time.fields := ⟨h'.date, h'.year, h.hour, h.min, h.sec⟩
  have hdiv : s'.seconds / 86400 = s'.cal.fields.toDate.days 1970 := (seconds_div h').1
  have hmod : s.seconds % 86400 = s.time.fields.secondOfDay := (seconds_div h).2
  refine ⟨hv, ?_⟩
  rw [rtcSeconds, ← hdiv, ← hmod, heq, Nat.div_add_mod]

/-- The registers at one moment of the read. -/
theorem rtcReadRegs_spec (h : s.Valid) (hp : Prompt rounds lag s) {regCal : RtcCal}
    {regTime : RtcTime} (hread : rtcReadRegs nextWeek rounds lag s = some (regCal, regTime, s')) :
    RtcValid regCal.fields regTime.fields ∧ rtcSeconds regCal.fields regTime.fields = s'.seconds ∧
      s'.Valid ∧ s.seconds ≤ s'.seconds ∧
      s'.seconds ≤ s.seconds + ∑ i ∈ Finset.range (3 * rounds), lag i ∧
      s' = { s with cal := s'.cal, time := s'.time } := by
  induction rounds generalizing s lag with
  | zero => simp [rtcReadRegs] at hread
  | succ rounds ih =>
    obtain ⟨hlag, hend⟩ := hp
    rw [sum_lag_succ] at hend
    obtain ⟨h₁, hs₁⟩ := h.advance nextWeek (lag 0) (by omega)
    obtain ⟨h₂, hs₂⟩ := h₁.advance nextWeek (lag 1) (by omega)
    obtain ⟨h₃, hs₃⟩ := h₂.advance nextWeek (lag 2) (by omega)
    rw [sum_lag_succ]
    rw [rtcReadRegs] at hread
    split at hread
    · obtain ⟨hv, hsec, hv', hle, hlt, hrest⟩ := ih h₃ ⟨fun i => hlag (i + 3), by omega⟩ hread
      exact ⟨hv, hsec, hv', by omega, by omega, hrest⟩
    · next hsame =>
      rw [not_not] at hsame
      obtain ⟨rfl, rfl, rfl⟩ : _ = regCal ∧ _ = regTime ∧ _ = s' := by simpa using hread
      have hlag1 := hlag 1
      have hlag2 := hlag 2
      have heq := h₁.seconds_eq h₃ hsame (by omega) (by omega)
      obtain ⟨hv, hsec⟩ := h₁.mix h₂ (by omega)
      exact ⟨hv, hsec.trans heq.symm, h₃, by omega, by omega, rfl⟩

/-- The loop ends after a round in which no second passes between its accesses. -/
theorem isSome_rtcReadRegs (nextWeek : BitVec 3 → BitVec 3) (h : s.Valid) (hp : Prompt rounds lag s)
    (hquiet : ∃ i < rounds, lag (3 * i + 1) = 0 ∧ lag (3 * i + 2) = 0) :
    (rtcReadRegs nextWeek rounds lag s).isSome = true := by
  induction rounds generalizing s lag with
  | zero => simp at hquiet
  | succ rounds ih =>
    obtain ⟨hlag, hend⟩ := hp
    rw [sum_lag_succ] at hend
    obtain ⟨h₁, hs₁⟩ := h.advance nextWeek (lag 0) (by omega)
    obtain ⟨h₂, hs₂⟩ := h₁.advance nextWeek (lag 1) (by omega)
    obtain ⟨h₃, hs₃⟩ := h₂.advance nextWeek (lag 2) (by omega)
    rw [rtcReadRegs]
    split
    · next hdiff =>
      refine ih h₃ ⟨fun i => hlag (i + 3), ?_⟩ ?_
      · change _ + ∑ i ∈ Finset.range (3 * rounds), lag (i + 3) < rtcEnd
        omega
      obtain ⟨i, hi, hquiet⟩ := hquiet
      cases i with
      | zero =>
        refine absurd ?_ hdiff
        rw [hquiet.1, hquiet.2]
        exact (h₁.advance_zero (by omega)).trans (h.advance_zero (by omega))
      | succ i => exact ⟨i, by omega, hquiet⟩
    · rfl

end Read

/-! ### Runs -/

section Runs

variable {nextWeek : BitVec 3 → BitVec 3} {s s' : RtcDevice} {cal cal' : CalendarCal}
  {time time' : CalendarTime} {elapsed pending rounds j : ℕ} {lag : ℕ → ℕ} {lsiCntVal : UInt16}

/-- The seconds that are added, and the fraction carried on, in parts of `lsiSecond`. -/
theorem correctedSeconds_spec (delta : UInt32) (lsiCntVal : UInt16) {remainder : UInt32}
    (hrem : remainder.toNat < 1500000000)
    (hfits : (32768 * lsiCntVal.toNat * delta.toNat + remainder.toNat) / 1500000000 < 2 ^ 32) :
    let r := correctedSeconds delta lsiCntVal remainder
    1500000000 * r.1.toNat + r.2.toNat =
        32768 * lsiCntVal.toNat * delta.toNat + remainder.toNat ∧
      r.2.toNat < 1500000000 := by
  intro r
  have hd := delta.toNat_lt
  have hc := lsiCntVal.toNat_lt
  have hsecond : lsiSecond.toNat = 1500000000 := rfl
  have hprod : (delta.toUInt64 * 32768 * lsiCntVal.toUInt64).toNat =
      32768 * lsiCntVal.toNat * delta.toNat := by
    have hle : delta.toNat * 32768 * lsiCntVal.toNat ≤ 2 ^ 32 * 32768 * 2 ^ 16 :=
      Nat.mul_le_mul (by omega) (by omega)
    simp only [UInt64.toNat_mul, UInt32.toNat_toUInt64, UInt16.toNat_toUInt64, UInt64.reduceToNat]
    rw [Nat.mod_eq_of_lt (a := _ * 32768) (by omega), Nat.mod_eq_of_lt (by omega)]
    ring
  obtain ⟨hquot, hmod⟩ := div6432_spec (delta.toUInt64 * 32768 * lsiCntVal.toUInt64)
    (show 0 < lsiSecond.toNat by decide)
  rw [hprod, hsecond] at hquot hmod
  generalize 32768 * lsiCntVal.toNat * delta.toNat = n at hfits hquot hmod ⊢
  simp only [r, correctedSeconds]
  generalize div6432 (delta.toUInt64 * 32768 * lsiCntVal.toUInt64) lsiSecond = q at hquot hmod ⊢
  have hsum : (remainder + q.2).toNat = remainder.toNat + q.2.toNat := by
    rw [UInt32.toNat_add, Nat.mod_eq_of_lt (by omega)]
  have hlow : q.1.toUInt32.toNat = q.1.toNat := by
    rw [UInt64.toNat_toUInt32, Nat.mod_eq_of_lt (by omega)]
  split
  · next h =>
    have hle := UInt32.le_iff_toNat_le.mp h
    rw [hsum, hsecond] at hle
    have hseconds : (q.1.toUInt32 + 1).toNat = q.1.toNat + 1 := by
      rw [UInt32.toNat_add, hlow, UInt32.toNat_one, Nat.mod_eq_of_lt (by omega)]
    rw [UInt32.toNat_sub_of_le _ _ h, hsum, hsecond, hseconds]
    omega
  · next h =>
    rw [ge_iff_le, UInt32.le_iff_toNat_le, hsum, hsecond] at h
    rw [hsum, hlow]
    omega

/-- The clock is set to `cal` and `time` and then read any number of times.  `elapsed` is the time
the reads have accounted for, in parts of `lsiSecond`: each second of the registers counts 32768
cycles, as long as the oscillator was measured to take for them.  `pending` are the seconds since
the last read. -/
inductive ClockRun (nextWeek : BitVec 3 → BitVec 3) (cal : CalendarCal) (time : CalendarTime) :
    ℕ → ℕ → RtcDevice → Prop where
  | set : ClockRun nextWeek cal time 0 0 (rtcCalendarSet cal time)
  | wait {elapsed pending : ℕ} {s : RtcDevice} (k : ℕ)
      (run : ClockRun nextWeek cal time elapsed pending s) (hend : s.seconds + k < rtcEnd) :
      ClockRun nextWeek cal time elapsed (pending + k) (s.advance nextWeek k)
  | get {elapsed pending rounds j : ℕ} {s s' : RtcDevice} {lag : ℕ → ℕ} {lsiCntVal : UInt16}
      {shown : CalendarCal × CalendarTime} (run : ClockRun nextWeek cal time elapsed pending s)
      (hprompt : Prompt rounds lag s)
      (hget : rtcCalendarGet nextWeek rounds lag lsiCntVal s = some (shown, s'))
      (hj : s'.seconds = s.seconds + j)
      (hend : rtcSeconds cal time +
        (elapsed + 32768 * lsiCntVal.toNat * (pending + j)) / 1500000000 < rtcEnd) :
      ClockRun nextWeek cal time (elapsed + 32768 * lsiCntVal.toNat * (pending + j)) 0 s'

/-- The device after a run: the saved time is the time set and what has elapsed. -/
structure RtcDevice.Keeps (cal : CalendarCal) (time : CalendarTime) (elapsed pending : ℕ)
    (s : RtcDevice) : Prop where
  valid : s.Valid
  raw : s.seconds = s.rawVal.toNat + pending
  init : RtcValid s.initCal s.initTime
  shown : 1500000000 * rtcSeconds s.initCal s.initTime + s.remainder.toNat =
    1500000000 * rtcSeconds cal time + elapsed
  remainder : s.remainder.toNat < 1500000000

theorem toNat_ofInt32 (n : ℕ) (h : n < 2 ^ 32) : (UInt32.ofInt n).toNat = n := by
  have hmod : ((n : ℤ) % 2 ^ 32).toNat = n := by omega
  rw [UInt32.ofInt, hmod]
  exact UInt32.toNat_ofNat_of_lt' h

/-- What a read does, from the registers it has read on. -/
theorem rtcCalendarGet_eq_some {shown : CalendarCal × CalendarTime}
    (hget : rtcCalendarGet nextWeek rounds lag lsiCntVal s = some (shown, s')) :
    ∃ regCal regTime s₁, rtcReadRegs nextWeek rounds lag s = some (regCal, regTime, s₁) ∧
      let curTime := mktime (tmOfFields regCal.fields regTime.fields)
      let q := correctedSeconds (UInt32.ofInt (curTime - s₁.rawVal.toNat)) lsiCntVal s₁.remainder
      shown = fieldsOfTm
          (localtime (mktime (tmOfFields s₁.initCal s₁.initTime) + q.1.toNat).toNat) ∧
        s' = { s₁ with
          initCal := shown.1
          initTime := shown.2
          rawVal := UInt32.ofInt curTime
          remainder := q.2 } := by
  rw [rtcCalendarGet] at hget
  cases hread : rtcReadRegs nextWeek rounds lag s with
  | none => simp [hread] at hget
  | some r =>
    obtain ⟨regCal, regTime, s₁⟩ := r
    simp only [hread, Option.bind_eq_bind, Option.bind_some, Option.some.injEq,
      Prod.mk.injEq] at hget
    obtain ⟨rfl, rfl⟩ := hget
    exact ⟨regCal, regTime, s₁, rfl, rfl, rfl⟩

theorem seconds_rtcCalendarGet (h : s.Valid) (hp : Prompt rounds lag s)
    {shown : CalendarCal × CalendarTime}
    (hget : rtcCalendarGet nextWeek rounds lag lsiCntVal s = some (shown, s')) :
    ∃ j ≤ ∑ i ∈ Finset.range (3 * rounds), lag i, s'.seconds = s.seconds + j := by
  obtain ⟨regCal, regTime, s₁, hread, -, rfl⟩ := rtcCalendarGet_eq_some hget
  obtain ⟨-, -, -, hge, hle, -⟩ := rtcReadRegs_spec h hp hread
  change ∃ j ≤ _, s₁.seconds = s.seconds + j
  exact ⟨s₁.seconds - s.seconds, by omega, by omega⟩

/-- The correction adds what has elapsed to the saved time, up to the fraction. -/
theorem RtcDevice.Keeps.corrected (hk : s.Keeps cal time elapsed pending) {delta : UInt32}
    (hdelta : delta.toNat = pending + j)
    (hend : rtcSeconds cal time +
      (elapsed + 32768 * lsiCntVal.toNat * (pending + j)) / 1500000000 < rtcEnd) :
    let q := correctedSeconds delta lsiCntVal s.remainder
    1500000000 * (rtcSeconds s.initCal s.initTime + q.1.toNat) + q.2.toNat =
        1500000000 * rtcSeconds cal time +
          (elapsed + 32768 * lsiCntVal.toNat * (pending + j)) ∧
      q.2.toNat < 1500000000 ∧
      86400 * 10957 ≤ rtcSeconds s.initCal s.initTime + q.1.toNat ∧
      rtcSeconds s.initCal s.initTime + q.1.toNat < rtcEnd := by
  intro q
  have hshown := hk.shown
  have hrem := hk.remainder
  have hlow := (rtcSeconds_lt_end hk.init).1
  have hend' : rtcEnd < 2 ^ 32 := by decide
  have hfits : (32768 * lsiCntVal.toNat * delta.toNat + s.remainder.toNat) / 1500000000 <
      2 ^ 32 := by
    rw [hdelta]
    omega
  obtain ⟨hsum, hfrac⟩ : 1500000000 * q.1.toNat + q.2.toNat =
      32768 * lsiCntVal.toNat * delta.toNat + s.remainder.toNat ∧ q.2.toNat < 1500000000 :=
    correctedSeconds_spec delta lsiCntVal hrem hfits
  rw [hdelta] at hsum
  exact ⟨by omega, hfrac, by omega, by omega⟩

/-- A read shows the time set and what has elapsed, rounded down. -/
theorem RtcDevice.Keeps.get (hk : s.Keeps cal time elapsed pending) (hp : Prompt rounds lag s)
    (hget : rtcCalendarGet nextWeek rounds lag lsiCntVal s = some ((cal', time'), s'))
    (hj : s'.seconds = s.seconds + j)
    (hend : rtcSeconds cal time +
      (elapsed + 32768 * lsiCntVal.toNat * (pending + j)) / 1500000000 < rtcEnd) :
    s'.Keeps cal time (elapsed + 32768 * lsiCntVal.toNat * (pending + j)) 0 ∧
      s'.initCal = cal' ∧ s'.initTime = time' ∧
      time'.week = .ofNat 3 (weekdayAt (rtcSeconds cal' time')) := by
  obtain ⟨regCal, regTime, s₁, hread, hshown, rfl⟩ := rtcCalendarGet_eq_some hget
  obtain ⟨hv, hsec, hv₁, -, hle, hrest⟩ := rtcReadRegs_spec hk.valid hp hread
  obtain ⟨hinit, hinit', hraw, hrem⟩ : s₁.initCal = s.initCal ∧ s₁.initTime = s.initTime ∧
      s₁.rawVal = s.rawVal ∧ s₁.remainder = s.remainder := by
    rw [hrest]
    exact ⟨rfl, rfl, rfl, rfl⟩
  rw [hinit, hinit', hraw, hrem, mktime_tmOfFields hk.init, mktime_tmOfFields hv, hsec] at hshown
  change s₁.seconds = s.seconds + j at hj
  have hend₁ : s₁.seconds < 2 ^ 32 := (hle.trans_lt hp.2).trans (by decide)
  have hdelta : (UInt32.ofInt ((s₁.seconds : ℤ) - s.rawVal.toNat)).toNat = pending + j := by
    have hraw := hk.raw
    have hsub : (s₁.seconds : ℤ) - s.rawVal.toNat = (pending + j : ℕ) := by omega
    rw [hsub, toNat_ofInt32 _ (by omega)]
  obtain ⟨hsum, hfrac, hlow, hhigh⟩ := hk.corrected hdelta hend
  simp only [mktime_tmOfFields hv, hsec, hraw, hrem]
  generalize correctedSeconds (UInt32.ofInt ((s₁.seconds : ℤ) - s.rawVal.toNat)) lsiCntVal
    s.remainder = q at hsum hfrac hlow hhigh hshown ⊢
  have hn : ((rtcSeconds s.initCal s.initTime : ℤ) + q.1.toNat).toNat =
      rtcSeconds s.initCal s.initTime + q.1.toNat := by omega
  rw [hn, fieldsOfTm_localtime hlow hhigh, Prod.mk.injEq] at hshown
  obtain ⟨rfl, rfl⟩ := hshown
  obtain ⟨hvalid, hseconds⟩ := fieldsAt_valid hlow hhigh
    (.ofNat 3 (weekdayAt (rtcSeconds s.initCal s.initTime + q.1.toNat)))
  refine ⟨⟨hv₁, ?_, hvalid, ?_, hfrac⟩, trivial, trivial, ?_⟩
  · change s₁.seconds = (UInt32.ofInt s₁.seconds).toNat + 0
    rw [toNat_ofInt32 _ hend₁, Nat.add_zero]
  · simp only [hseconds]
    exact hsum
  · rw [hseconds]
    rfl

/-- After any run the saved time is right. -/
theorem ClockRun.keeps (hv : RtcValid cal time)
    (run : ClockRun nextWeek cal time elapsed pending s) : s.Keeps cal time elapsed pending := by
  induction run with
  | set =>
    have hlt := (rtcSeconds_lt_end hv).2.trans (show rtcEnd < 2 ^ 32 by decide)
    refine ⟨?_, ?_, hv, rfl, show (0 : UInt32).toNat < 1500000000 by decide⟩
    · simpa [RtcDevice.Valid, rtcCalendarSet] using hv
    · simp only [RtcDevice.seconds, rtcCalendarSet, RtcCal.fields_ofFields,
        RtcTime.fields_ofFields, mktime_tmOfFields hv, toNat_ofInt32 _ hlt, Nat.add_zero]
  | wait k run hend ih =>
    obtain ⟨hvalid, hsec⟩ := ih.valid.advance nextWeek k hend
    refine ⟨hvalid, ?_, ih.init, ih.shown, ih.remainder⟩
    rw [hsec, ih.raw, Nat.add_assoc]
    rfl
  | get run hprompt hget hj hend ih => exact (ih.get hprompt hget hj hend).1

/-- After any run of waits and reads, a read returns after a round in which no second passes
between its accesses; it shows the time that was set and the corrected seconds of the oscillator
since, up to the moment of the read and rounded down once, with the day of the week. -/
theorem clock_keeps_time (hv : RtcValid cal time)
    (run : ClockRun nextWeek cal time elapsed pending s) (lsiCntVal : UInt16)
    (hp : Prompt rounds lag s) :
    ((∃ i < rounds, lag (3 * i + 1) = 0 ∧ lag (3 * i + 2) = 0) →
      (rtcCalendarGet nextWeek rounds lag lsiCntVal s).isSome = true) ∧
    ∀ cal' time' s', rtcCalendarGet nextWeek rounds lag lsiCntVal s = some ((cal', time'), s') →
      ∃ j ≤ ∑ i ∈ Finset.range (3 * rounds), lag i, s'.seconds = s.seconds + j ∧
        (rtcSeconds cal time +
            (elapsed + 32768 * lsiCntVal.toNat * (pending + j)) / 1500000000 < rtcEnd →
          RtcValid cal' time' ∧ rtcSeconds cal' time' = rtcSeconds cal time +
            (elapsed + 32768 * lsiCntVal.toNat * (pending + j)) / 1500000000 ∧
          time'.week = .ofNat 3 (weekdayAt (rtcSeconds cal' time'))) := by
  have hk := run.keeps hv
  constructor
  · intro hquiet
    have hread := isSome_rtcReadRegs nextWeek hk.valid hp hquiet
    obtain ⟨r, hr⟩ := Option.isSome_iff_exists.mp hread
    simp [rtcCalendarGet, hr]
  · intro cal' time' s' hget
    obtain ⟨j, hle, hj⟩ := seconds_rtcCalendarGet hk.valid hp hget
    refine ⟨j, hle, hj, fun hend => ?_⟩
    obtain ⟨hk', rfl, rfl, hweek⟩ := hk.get hp hget hj hend
    have hshown := hk'.shown
    have hfrac := hk'.remainder
    exact ⟨hk'.init, by omega, hweek⟩

/-- The time `x_rtc_init` sets, ten seconds of a slow oscillator later: the day has changed. -/
theorem clock_after_midnight :
    ∃ cal' time' s', rtcCalendarGet id 1 (fun _ => 0) 45777
        ((rtcCalendarSet ⟨7, 6, 25⟩ ⟨55, 59, 23, 7⟩).advance id 10) = some ((cal', time'), s') ∧
      rtcSeconds cal' time' = 1749340805 := by
  have hv : RtcValid ⟨7, 6, 25⟩ ⟨55, 59, 23, 7⟩ :=
    ⟨by decide, by decide, by decide, by decide, by decide⟩
  have hdate : CalendarCal.toDate ⟨7, 6, 25⟩ = ⟨2025, 6, 7⟩ := rfl
  have hdays : Date.days 1970 ⟨2025, 6, 7⟩ = 20246 := by decide +kernel
  have hseconds : rtcSeconds ⟨7, 6, 25⟩ ⟨55, 59, 23, 7⟩ = 1749340795 := by
    rw [rtcSeconds, hdate, hdays]
    rfl
  have hset : (rtcCalendarSet ⟨7, 6, 25⟩ ⟨55, 59, 23, 7⟩).seconds = 1749340795 := by
    simpa [RtcDevice.seconds, rtcCalendarSet] using hseconds
  have hend : (rtcCalendarSet ⟨7, 6, 25⟩ ⟨55, 59, 23, 7⟩).seconds + 10 < rtcEnd := by
    rw [hset]
    decide
  have start : ClockRun id ⟨7, 6, 25⟩ ⟨55, 59, 23, 7⟩ 0 0 _ := .set
  have hsec := ((start.keeps hv).valid.advance id 10 hend).2
  have hp : Prompt 1 (fun _ => 0)
      ((rtcCalendarSet ⟨7, 6, 25⟩ ⟨55, 59, 23, 7⟩).advance id 10) := by
    refine ⟨fun _ => show 0 < 43200 by decide, ?_⟩
    rw [hsec, Finset.sum_const_zero, Nat.add_zero]
    exact hend
  obtain ⟨hsome, hshown⟩ := clock_keeps_time hv (start.wait 10 hend) 45777 hp
  obtain ⟨⟨⟨cal', time'⟩, s'⟩, hget⟩ :=
    Option.isSome_iff_exists.mp (hsome ⟨0, by decide, rfl, rfl⟩)
  obtain ⟨j, hj, -, h⟩ := hshown cal' time' s' hget
  obtain rfl : j = 0 := by simpa using hj
  rw [hseconds] at h
  exact ⟨cal', time', s', hget, (h (by decide)).2.1⟩

end Runs

end ErgoDock
