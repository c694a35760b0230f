import ErgoDock.SysParam

/-! # The anti-snore controller on its own record (`x_snoreintervention.c`, first part)

The functions of `x_snoreintervention.c` that touch only the controller's fields: run mode,
window length and threshold, the cycle timer, the detection window, and the resets.  A
detection window opens at a tick (`timerS`, with the snore count of that moment in
`oldsnoreNub`) and closes at the first run that sees it older than `trigTimer`. -/

namespace ErgoDock

def snoreRunModeProd : UInt8 := 0
def snoreRunModeTest : UInt8 := 1
def snoreWindowProdTicks : UInt32 := 30000
def snoreWindowTestTicks : UInt32 := 6000
def snoreFlatDelayTicksProd : UInt32 := 2880000
def snoreFlatDelayTicksTest : UInt32 := 6000
def siPwm : UInt8 := 0x55
def siTmr : UInt8 := 0x15
def siSegMax : UInt8 := 3
def snoreNormalSegSec : UInt8 := 3

namespace AntiSnore

/-- Change the `snoreIntervention` record. -/
def mapSi (a : AntiSnore) (f : SnoreIntervention → SnoreIntervention) : AntiSnore :=
  { a with snoreIntervention := f a.snoreIntervention }

section mapSi
variable (a : AntiSnore) (f : SnoreIntervention → SnoreIntervention)

@[simp] theorem timer_mapSi : (a.mapSi f).timer = a.timer := rfl
@[simp] theorem antiSnoreIntensity_mapSi :
    (a.mapSi f).antiSnoreIntensity = a.antiSnoreIntensity := rfl
@[simp] theorem lastAntiSnoreIntensity_mapSi :
    (a.mapSi f).lastAntiSnoreIntensity = a.lastAntiSnoreIntensity := rfl
@[simp] theorem sf_mapSi : (a.mapSi f).sf = a.sf := rfl
@[simp] theorem snoreIntervention_mapSi :
    (a.mapSi f).snoreIntervention = f a.snoreIntervention := rfl

end mapSi

/-! ### Parameters of the run mode -/

/-- `snore_run_mode_get`. -/
def snoreRunModeGet (a : AntiSnore) : UInt8 :=
  if a.snoreIntervention.runMode = snoreRunModeTest then snoreRunModeTest else snoreRunModeProd

/-- `snore_window_ticks`. -/
def snoreWindowTicks (a : AntiSnore) : UInt32 :=
  if a.snoreRunModeGet = snoreRunModeTest then snoreWindowTestTicks else snoreWindowProdTicks

/-- `snore_flat_delay_ticks`. -/
def snoreFlatDelayTicks (a : AntiSnore) : UInt32 :=
  if a.snoreRunModeGet = snoreRunModeTest then snoreFlatDelayTicksTest
  else snoreFlatDelayTicksProd

/-- `snore_period_threshold`. -/
def snorePeriodThreshold (a : AntiSnore) (intensity : UInt8) : UInt16 :=
  if a.snoreRunModeGet = snoreRunModeTest then
    if intensity = 3 then 5 else if intensity = 2 then 6 else if intensity = 1 then 7 else 0xFFFF
  else
    if intensity = 3 then 7 else if intensity = 2 then 14 else if intensity = 1 then 20
    else 0xFFFF

/-- `read_AntiSnore_intensity`: the value read is `a.antiSnoreIntensity`; as a side effect the
function brings `enable` up to date. -/
def readAntiSnoreIntensity (a : AntiSnore) : AntiSnore :=
  a.mapSi fun si => { si with enable := a.antiSnoreIntensity != 0 }

/-- `snore_refresh_trig_timer`. -/
def snoreRefreshTrigTimer (a : AntiSnore) : AntiSnore :=
  a.readAntiSnoreIntensity.mapSi fun si =>
    { si with
      trigTimer :=
        if a.antiSnoreIntensity ≥ 1 ∧ a.antiSnoreIntensity ≤ 3 then a.snoreWindowTicks else 0 }

/-! ### Resets -/

/-- `snore_lift_reset_state`. -/
def snoreLiftResetState (a : AntiSnore) : AntiSnore :=
  a.mapSi fun si => { si with liftSegEndTick := 0, liftSegPwm := 0 }

/-- `SnoringInterventDetectionReset`. -/
def snoringInterventDetectionReset (a : AntiSnore) : AntiSnore :=
  { a with
    sf := { a.sf with snoreIntervenNub := 0, snorevolumeAcc := 0, snorevolumeCnt := 0 }
    snoreIntervention := { a.snoreIntervention with
      trig := 0
      triggeredFlag := false
      timerS := 0
      oldsnoreNub := 0
      isIntervening := a.snoreIntervention.firstLiftTick != 0 } }

/-- `SnoringInterventFlatTimerClear`. -/
def snoringInterventFlatTimerClear (a : AntiSnore) : AntiSnore :=
  a.mapSi fun si => { si with firstLiftTick := 0 }

/-- The last two assignments of `SnoringInterventStateClear`. -/
def clearLiftStage (a : AntiSnore) : AntiSnore :=
  a.mapSi fun si => { si with isIntervening := false, liftStage := 0 }

/-- `snore_try_cycle_reset_tick`. -/
def snoreTryCycleResetTick (a : AntiSnore) : AntiSnore :=
  let first := a.snoreIntervention.firstLiftTick
  if first = 0 then a
  else if a.timer - first < a.snoreFlatDelayTicks then a
  else (a.mapSi fun si => { si with liftStage := 0 }).snoringInterventFlatTimerClear.mapSi
    fun si => { si with isIntervening := false }

/-- `SnoringInterventionInit` up to its two calls at the end. -/
def initFields (a : AntiSnore) : AntiSnore :=
  let intensity := a.antiSnoreIntensity
  let a₁ := a.readAntiSnoreIntensity.mapSi fun si => { si with runMode := snoreRunModeProd }
  let a₂ := { a₁ with lastAntiSnoreIntensity := intensity }.snoreRefreshTrigTimer
  a₂.mapSi fun si =>
    { si with
      snoreInterventionPwm := if si.snoreInterventionPwm = 0 then siPwm else si.snoreInterventionPwm
      snoreInterventionTmr := if si.snoreInterventionTmr = 0 then siTmr else si.snoreInterventionTmr
      enable := intensity != 0 }

/-- The value `snore_run_mode_set` stores. -/
def normalMode (mode : UInt8) : UInt8 :=
  if mode = snoreRunModeTest then snoreRunModeTest else snoreRunModeProd

/-! ### Detection -/

/-- `snore_lift_tmr_seg_seconds`. -/
def snoreLiftTmrSegSeconds (a : AntiSnore) : UInt8 :=
  let seg := a.snoreIntervention.snoreInterventionTmr / 3
  if seg = 0 then 1 else seg

/-- `determine_intervention`. -/
def determineIntervention (a : AntiSnore) : AntiSnore :=
  let a₁ := a.readAntiSnoreIntensity
  let thr := a₁.snorePeriodThreshold a.antiSnoreIntensity
  a₁.mapSi fun si => { si with triggeredFlag := thr != 0xFFFF && a₁.sf.snoreNubperiod ≥ thr }

/-- The first statement of `simulate_detection_period`: open a window when none is open. -/
def openDetectionWindow (a : AntiSnore) : AntiSnore :=
  if a.snoreIntervention.timerS = 0 ∧ a.snoreIntervention.trigTimer > 0 then
    a.mapSi fun si =>
      { si with timerS := a.timer, oldsnoreNub := a.sf.snoreNub.toUInt32 }
  else a

/-- The test of the second statement: the open window is older than `trigTimer`. -/
def WindowElapsed (a : AntiSnore) : Prop :=
  a.snoreIntervention.timerS ≠ 0 ∧
    a.timer - a.snoreIntervention.timerS > a.snoreIntervention.trigTimer

instance (a : AntiSnore) : Decidable a.WindowElapsed := by unfold WindowElapsed; infer_instance

/-- The body of the second statement: close the window and decide. -/
def closeDetectionWindow (a : AntiSnore) : AntiSnore :=
  determineIntervention
    { a with
      sf := { a.sf with
        snoreNubperiod := (a.sf.snoreNub.toUInt32 - a.snoreIntervention.oldsnoreNub).toUInt16
        snorevolumeAcc := 0
        snorevolumeCnt := 0 }
      snoreIntervention := { a.snoreIntervention with timerS := 0, trig := 1 } }

/-- `simulate_detection_period`. -/
def simulateDetectionPeriod (a : AntiSnore) : AntiSnore :=
  let a₁ := a.openDetectionWindow
  if a₁.WindowElapsed then a₁.closeDetectionWindow else a₁

/-- The block of `SnoringIntervention_run` for a changed level. -/
def changeLevel (a : AntiSnore) : AntiSnore :=
  let intensity := a.antiSnoreIntensity
  if intensity ≠ a.lastAntiSnoreIntensity then
    { a.snoreRefreshTrigTimer.snoringInterventDetectionReset with
      lastAntiSnoreIntensity := intensity }
  else a

/-! ### After a closed window -/

/-- `trig` is acknowledged. -/
def settle (a : AntiSnore) : AntiSnore := a.mapSi fun si => { si with trig := 0 }

/-- The condition under which a closed window starts a lift. -/
def LiftDecided (a : AntiSnore) : Prop :=
  a.snoreIntervention.triggeredFlag ∧ a.snoreIntervention.liftStage < siSegMax

instance (a : AntiSnore) : Decidable a.LiftDecided := by unfold LiftDecided; infer_instance

/-- The bookkeeping of the cycle after a lift has started. -/
def countLift (a : AntiSnore) : AntiSnore :=
  a.mapSi fun si =>
    let stage := si.liftStage + 1
    { si with
      liftStage := stage
      firstLiftTick := if stage = 1 then a.timer else si.firstLiftTick
      triggeredTimeS := if stage = 1 then a.timer else si.triggeredTimeS
      isIntervening := true }

end AntiSnore
end ErgoDock
