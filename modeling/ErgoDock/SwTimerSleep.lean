import ErgoDock.Lsi
import ErgoDock.SwTimerSchedule

/-! # Sleeping between the timers (`sw_timer_port.c`)

`timer_sleep` puts the device to sleep for the time to the first timer, in cycles of the low-speed
oscillator as it was last measured.  After any run of the timers it either leaves everything as it
is, or the sleep ends before every timer is due and less than two cycles before the first, and the
clock set forward by what was slept does not pass one either (`sleep_wakes_in_time`). -/

namespace ErgoDock

variable {ν σ : Type}

/-- What `timer_sleep` reads and writes besides the timers. -/
structure SleepRegs where
  wkupStatus : Bool
  intMask : UInt32
  cntSamp : UInt32
  wkupTime : UInt32
  wkupCnt : UInt16
  sleepTime : UInt32
  wkupCntl : UInt32
  sleepCntl : UInt32

/-- `SLEEP_MINIMUM_HS_CYCLES`. -/
def sleepMinimumHsCycles : ℤ := 10

/-- `wkup_sleep_interval_enough`: more than 100 half microseconds since the last waking.  The
product leaves the range of an `int` once that is 18 minutes ago. -/
def wkupSleepIntervalEnough (r : SleepRegs) (time : UInt32) (cnt : UInt16) : Bool :=
  100 < Int32.ofInt (timerTimeCompare time r.wkupTime * 625 + (cnt - r.wkupCnt).toInt16.toInt)

/-- The registers that start the sleep. -/
def SleepRegs.enter (r : SleepRegs) (lsiCntVal : UInt16) : SleepRegs :=
  { r with
    wkupCntl := (1 : UInt32) <<< 21 ||| (usToLpcycles lsiCntVal 1500).toUInt16.toUInt32 <<< 10 ||| 1
    sleepCntl := r.sleepCntl ||| 7 }

/-- `timer_sleep` on the low-speed oscillator. -/
def timerSleep (lag : TimerDevice ν σ → ℕ) (lsiCntVal : UInt16) (r : SleepRegs)
    (s : TimerDevice ν σ) : Option (Bool × SleepRegs × TimerDevice ν σ) :=
  let (current, s) := s.timerTimeGet lag
  let cnt := (624 - r.cntSamp).toUInt16
  if r.wkupStatus || !wkupSleepIntervalEnough r current cnt || r.intMask &&& 1 != 0 then
    some (false, r, s)
  else
    match swTimerListPick s with
    | none => some (true, r.enter lsiCntVal, s)
    | some timer =>
      let sleepTime := timerTimeCompare (s.env timer).target current
      if sleepTime < sleepMinimumHsCycles then
        some (false, r, s)
      else do
        let lpcycles ← lsiFreqUpdateAndHsToLpcycles lsiCntVal sleepTime
        some (true, { r with sleepTime := lpcycles - 1 }.enter lsiCntVal, s)

section Sleep

variable {cb : ν → σ → Bool × σ} {P L : ℕ} {s : TimerDevice ν σ} {q : List ν} {t : ν}
  {lsiCntVal : UInt16}

/-- A timer that is far enough away is changed to cycles: the sleep ends before it is due, and
less than two cycles before. -/
theorem sleepTime_spec (hahead : 10 ≤ s.ahead t) (hle : s.ahead t ≤ P) (hP : P < 2 ^ 27)
    (hcnt : 0 < lsiCntVal.toNat) (hfits : 937500 * P / (2 * lsiCntVal.toNat) < 2 ^ 32) :
    ∃ lpcycles, lsiFreqUpdateAndHsToLpcycles lsiCntVal (s.ahead t) = some lpcycles ∧
      (lpcycles - 1).toNat + 1 = lpcycles.toNat ∧
      (2 * lsiCntVal.toNat * lpcycles.toNat : ℤ) ≤ 937500 * s.ahead t ∧
      937500 * s.ahead t < 2 * lsiCntVal.toNat * (lpcycles.toNat + 1) := by
  obtain ⟨hs, hhs⟩ := Int.eq_ofNat_of_zero_le (show 0 ≤ s.ahead t by omega)
  rw [hhs] at hahead hle ⊢
  have hc := lsiCntVal.toNat_lt
  have hmono : 937500 * hs / (2 * lsiCntVal.toNat) ≤ 937500 * P / (2 * lsiCntVal.toNat) :=
    Nat.div_le_div_right (by omega)
  obtain ⟨lpcycles, hval, hcycles⟩ :=
    toNat_hsToLpcycles (show 0 < hs by omega) (by omega) hcnt (hmono.trans_lt hfits)
  have hpos : 0 < lpcycles.toNat := by
    rw [hcycles]
    exact Nat.div_pos (by omega) (by omega)
  have hle1 : (1 : UInt32) ≤ lpcycles := by
    rw [UInt32.le_iff_toNat_le]
    exact hpos
  have hmul := Nat.mul_div_le (937500 * hs) (2 * lsiCntVal.toNat)
  have hlt := Nat.lt_mul_div_succ (937500 * hs) (show 0 < 2 * lsiCntVal.toNat by omega)
  rw [← hcycles] at hmul hlt
  refine ⟨lpcycles, hval, ?_, by exact_mod_cast hmul, by exact_mod_cast hlt⟩
  rw [UInt32.toNat_sub_of_le _ _ hle1, UInt32.toNat_one]
  omega

/-- The sleep the registers are set to ends in time for the timer `u`: the cycles end before it is
due, and the clock set forward by them does not pass it. -/
structure SleepRegs.WakesFor (r : SleepRegs) (lsiCntVal : UInt16) (s : TimerDevice ν σ) (u : ν) :
    Prop where
  due : 10 ≤ s.ahead u
  cycles : (2 * lsiCntVal.toNat * (r.sleepTime.toNat + 1) : ℤ) ≤ 937500 * s.ahead u
  clock : ∀ dur : UInt32, dur.toNat ≤ r.sleepTime.toNat + 1 →
    ((lpcyclesToHus lsiCntVal dur).toNat / 625 : ℤ) ≤ s.ahead u

theorem wakesFor_of_cycles {r : SleepRegs} {u : ν} (hdue : 10 ≤ s.ahead u)
    (hcycles : (2 * lsiCntVal.toNat * (r.sleepTime.toNat + 1) : ℤ) ≤ 937500 * s.ahead u) :
    r.WakesFor lsiCntVal s u := by
  refine ⟨hdue, hcycles, fun dur hdur => ?_⟩
  have hmul : 2 * lsiCntVal.toNat * dur.toNat ≤
      2 * lsiCntVal.toNat * (r.sleepTime.toNat + 1) := Nat.mul_le_mul_left _ hdur
  generalize hx : 2 * lsiCntVal.toNat * (r.sleepTime.toNat + 1) = x at hmul
  have hle : (x : ℤ) ≤ 937500 * s.ahead u := by
    rw [← hx]
    push_cast
    exact hcycles
  rw [toNat_lpcyclesToHus]
  generalize 2 * lsiCntVal.toNat * dur.toNat = y at hmul
  omega

/-- After any run of the timers `timer_sleep` comes to its end.  If it refuses, it leaves the
registers as they are, and it does refuse while a timer is due within ten half slots.  If it puts
the device to sleep, the sleep ends in time for every active timer and less than two cycles before
the first; without an active timer the time to sleep is left as it was. -/
theorem sleep_wakes_in_time [DecidableEq ν] (hPL : P + L < 2 ^ 27) {env : ν → SwTimerEnv}
    (hcfg : Configured cb P env) (app : σ) (clk : ℕ)
    (run : TimerRun cb P L (fun _ => True) (swTimerModuleReset env app clk) s)
    (lag : TimerDevice ν σ → ℕ) (hlag : Allowed cb P L s (.wait (lag s))) (lsiCntVal : UInt16)
    (hcnt : 0 < lsiCntVal.toNat) (hfits : 937500 * P / (2 * lsiCntVal.toNat) < 2 ^ 32)
    (r : SleepRegs) :
    ∃ ok r' s', timerSleep lag lsiCntVal r s = some (ok, r', s') ∧ s' = s.advance (lag s) ∧
      (ok = false → r' = r) ∧
      (ok = true → (∀ u, swTimerActive s' u = true → r'.WakesFor lsiCntVal s' u) ∧
        ((∃ u, swTimerActive s' u = true) → ∃ t, swTimerActive s' t = true ∧
          937500 * s'.ahead t < 2 * lsiCntVal.toNat * (r'.sleepTime.toNat + 2)) ∧
        ((∀ u, swTimerActive s' u = false) → r'.sleepTime = r.sleepTime)) := by
  obtain ⟨q, hq, -, -⟩ := run.invariant hPL (kept_true cb P L) (queued_reset hcfg app clk)
    (armed_nil _) trivial
  have hq' := hq.advance hPL fun t ht => hlag t ((hq.active_iff t).mpr ht)
  rw [timerSleep]
  simp only [TimerDevice.timerTimeGet, hq'.pick]
  set s' := s.advance (lag s)
  split
  · exact ⟨false, r, s', rfl, rfl, fun _ => rfl, by simp⟩
  · cases q with
    | nil =>
      have hidle : ∀ u, ¬ swTimerActive s' u = true := fun u hu => by
        simpa using (hq'.active_iff u).mp hu
      exact ⟨true, r.enter lsiCntVal, s', rfl, rfl, by simp, fun _ =>
        ⟨fun u hu => absurd hu (hidle u), fun h => h.elim fun u hu => absurd hu (hidle u),
          fun _ => rfl⟩⟩
    | cons t q =>
      have htq : t ∈ t :: q := List.mem_cons_self ..
      have hact : swTimerActive s' t = true := (hq'.active_iff t).mpr htq
      have hfirst : ∀ u, swTimerActive s' u = true → s'.ahead t ≤ s'.ahead u := fun u hu => by
        rcases List.mem_cons.mp ((hq'.active_iff u).mp hu) with rfl | huq
        · exact le_refl _
        · exact (List.pairwise_cons.mp hq'.ordered).1 u huq
      simp only [List.head?_cons]
      by_cases hnear : s'.ahead t < 10
      · exact ⟨false, r, s', if_pos hnear, rfl, fun _ => rfl, by simp⟩
      · obtain ⟨lpcycles, hval, hpred, hle, hlt⟩ := sleepTime_spec (P := P) (not_lt.mp hnear)
          (hq'.window t htq).2 (by omega) hcnt hfits
        have hcycles : ((lpcycles - 1).toNat : ℤ) + 1 = lpcycles.toNat := by exact_mod_cast hpred
        refine ⟨true, { r with sleepTime := lpcycles - 1 }.enter lsiCntVal, s', ?_, rfl, by simp,
          fun _ => ⟨fun u hu => ?_, fun _ => ⟨t, hact, ?_⟩, fun hidle => ?_⟩⟩
        · refine (if_neg hnear).trans ?_
          change (lsiFreqUpdateAndHsToLpcycles lsiCntVal (s'.ahead t)).bind _ = _
          rw [hval]
          rfl
        · have hle' := hfirst u hu
          refine wakesFor_of_cycles (by omega) ?_
          change (2 * lsiCntVal.toNat * ((lpcycles - 1).toNat + 1) : ℤ) ≤ _
          rw [hcycles]
          omega
        · change 937500 * s'.ahead t < 2 * lsiCntVal.toNat * (((lpcycles - 1).toNat : ℤ) + 2)
          have hsucc : ((lpcycles - 1).toNat : ℤ) + 2 = lpcycles.toNat + 1 := by omega
          rw [hsucc]
          exact hlt
        · rw [hidle t] at hact
          exact absurd hact (by simp)

end Sleep

/-- One timer, running every second. -/
def secondTimer (_ : Unit) : SwTimerEnv := ⟨3200, 0⟩

def secondCallback (_ : Unit) (app : Unit) : Bool × Unit := (true, app)

def secondStarted : TimerDevice Unit Unit :=
  ((swTimerModuleReset secondTimer () 0).step secondCallback (fun _ => 0) 2 (.start ())).get rfl

/-- The registers one half slot after waking. -/
def awake : SleepRegs := ⟨false, 0, 0, 0xfffffff, 624, 0, 0, 0⟩

/-- A second of sleep on an oscillator of 32768 Hz. -/
theorem sleep_one_second : ∃ r', timerSleep (fun _ => 0) 45776 awake secondStarted =
    some (true, r', secondStarted.advance 0) ∧ r'.sleepTime.toNat = 32767 := by
  have hcfg : Configured secondCallback 3200 secondTimer := by
    intro t
    simp [secondTimer]
  have hstart : TimerRun secondCallback 3200 2 (fun _ => True)
      (swTimerModuleReset secondTimer () 0) secondStarted :=
    TimerRun.step TimerRun.refl trivial (show Allowed _ _ _ _ (.start ()) from rfl)
      (timely_zero secondCallback 3200 2 0) (Nat.le_refl 0) (returns_of_step 2 fun _ => rfl)
  have hwait : Allowed secondCallback 3200 2 secondStarted (.wait 0) := by
    unfold Allowed
    decide
  obtain ⟨ok, r', s', hsleep, rfl, -, hok⟩ := sleep_wakes_in_time (by decide) hcfg () 0 hstart
    (fun _ => 0) hwait 45776 (by decide) (by decide) awake
  have hrun : timerSleep (fun _ => 0) 45776 awake secondStarted =
      (lsiFreqUpdateAndHsToLpcycles 45776 3200).bind fun lpcycles => some (true,
        { awake with sleepTime := lpcycles - 1 }.enter 45776, secondStarted.advance 0) := rfl
  have htrue : ok = true := by
    rw [hrun, Option.bind_eq_some_iff] at hsleep
    obtain ⟨lpcycles, -, h⟩ := hsleep
    simp only [Option.some.injEq, Prod.mk.injEq] at h
    exact h.1.symm
  subst htrue
  obtain ⟨hall, hfirst, -⟩ := hok rfl
  have hahead : ∀ u, (secondStarted.advance 0).ahead u = 3200 := fun () => by decide
  obtain ⟨t, ht, hlt⟩ := hfirst ⟨(), by decide⟩
  have hle := (hall () (by decide)).cycles
  rw [hahead] at hlt hle
  have hcnt : (45776 : UInt16).toNat = 45776 := rfl
  rw [hcnt] at hlt hle
  exact ⟨r', hsleep, by omega⟩

end ErgoDock
