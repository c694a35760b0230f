import ErgoDock.Uart

/-! # The anti-snore controller and the bus (`x_snoreintervention.c`, second part)

The functions that reach beyond the controller's own fields: the lift segment, which keeps
the bus queue supplied with lift pulses until its end tick, the state clear, the run-mode
switch, and the periodic function `SnoringIntervention_run`. -/

namespace ErgoDock
namespace Dock

/-! ### Snore counts for the status report -/

/-- One of the two counting windows of `snore_debug_window_tick`: new start, base and count. -/
def snoreDbgWindow (t t0 : UInt32) (nub base : UInt16) (window : UInt32) :
    UInt32 × UInt16 × UInt16 :=
  if t0 = 0 ∨ t - t0 ≥ window then (t, nub, nub - nub) else (t0, base, nub - base)

/-- `snore_debug_window_tick`. -/
def snoreDebugWindowTick (d : Dock) : Dock :=
  let nub := d.anti.sf.snoreNub
  let t := d.anti.timer
  let w₁ := snoreDbgWindow t d.dbg.t0Of1min nub d.dbg.baseOf1min 6000
  let w₅ := snoreDbgWindow t d.dbg.t0Of5min nub d.dbg.baseOf5min 30000
  { d with dbg := ⟨w₁.1, w₁.2.1, w₁.2.2, w₅.1, w₅.2.1, w₅.2.2⟩ }

/-! ### The lift segment -/

/-- `snore_lift_enqueue_pulse`. -/
def snoreLiftEnqueuePulse (d : Dock) (pwm : UInt8) : Dock :=
  let key := if d.voice.bedType = 1 then keyM1Out ||| keyM2Out else keyM1Out
  let o := Origin.lift d.anti.timer d.anti.snoreIntervention.liftSegEndTick
  if d.mfpMainboxSupportsSoftStart then
    { d with mfp := d.mfp.prepareMfpSoftStart o key pwm 1 2 }
  else { d with mfp := d.mfp.prepareMfpNormalKet o key 2 }

/-- `snore_lift_stop_and_release`. -/
def snoreLiftStopAndRelease (d : Dock) : Dock :=
  let d₁ := d.mapAnti AntiSnore.snoreLiftResetState
  { d₁ with mfp := d₁.mfp.mfpTxQueueClear.prepareMfpNormalKet .release 0 3 }

/-- The parameters `snore_lift_start` works with: the PWM and the seconds of the segment. -/
def snoreLiftParams (soft : Bool) (pwm tmrSegSec : UInt8) : UInt8 × UInt8 :=
  if soft then (if pwm = 0 then siPwm else pwm, if tmrSegSec = 0 then 1 else tmrSegSec)
  else (pwm, snoreNormalSegSec)

/-- `snore_lift_start`. -/
def snoreLiftStart (d : Dock) (pwm tmrSegSec : UInt8) : Dock :=
  let p := snoreLiftParams d.mfpMainboxSupportsSoftStart pwm tmrSegSec
  let d₁ := if d.anti.snoreIntervention.liftSegEndTick ≠ 0 then d.snoreLiftStopAndRelease else d
  let segEnd := d₁.anti.timer + p.2.toUInt32 * 100
  let d₂ := d₁.mapAnti fun a =>
    a.mapSi fun si => { si with liftSegPwm := p.1, liftSegEndTick := segEnd }
  (d₂.snoreLiftEnqueuePulse p.1).emit (.liftStart p.1 p.2 segEnd)

/-- `snore_lift_process_tick`. -/
def snoreLiftProcessTick (d : Dock) : Dock :=
  let segEnd := d.anti.snoreIntervention.liftSegEndTick
  if segEnd = 0 then d
  else if d.anti.timer ≥ segEnd then d.snoreLiftStopAndRelease
  else if d.mfp.mfpTxQueueIsEmpty then
    d.snoreLiftEnqueuePulse d.anti.snoreIntervention.liftSegPwm
  else d

/-! ### Clearing and switching -/

/-- `SnoringInterventStateClear`. -/
def snoringInterventStateClear (d : Dock) : Dock :=
  let d₁ := if d.anti.snoreIntervention.liftSegEndTick ≠ 0 then d.snoreLiftStopAndRelease
    else d.mapAnti AntiSnore.snoreLiftResetState
  (d₁.mapAnti AntiSnore.snoringInterventDetectionReset).mapAnti AntiSnore.clearLiftStage

/-- `snore_run_mode_set`. -/
def snoreRunModeSet (d : Dock) (mode : UInt8) : Dock :=
  let m := AntiSnore.normalMode mode
  if d.anti.snoreIntervention.runMode = m then d
  else
    let d₁ := (d.mapAnti fun a => a.mapSi fun si => { si with runMode := m })
    (d₁.snoringInterventStateClear.mapAnti AntiSnore.snoringInterventFlatTimerClear).mapAnti
      AntiSnore.snoreRefreshTrigTimer

/-- `SnoringInterventionInit`. -/
def snoringInterventionInit (d : Dock) : Dock :=
  (d.mapAnti AntiSnore.initFields).snoringInterventStateClear.mapAnti
    AntiSnore.snoringInterventFlatTimerClear

/-! ### The periodic function -/

/-- The first part of `SnoringIntervention_run`, executed whatever the level: the counters,
the cycle timer and the running segment.  (The source assigns `enable` once more here, with
the value `read_AntiSnore_intensity` has just given it.) -/
def runPrelude (d : Dock) : Dock :=
  let d₁ := (d.mapAnti AntiSnore.readAntiSnoreIntensity).snoreDebugWindowTick
  (d₁.mapAnti AntiSnore.snoreTryCycleResetTick).snoreLiftProcessTick

/-- Level change and detection, the middle part of `SnoringIntervention_run`. -/
def runDetect (d : Dock) : Dock :=
  (d.runPrelude.mapAnti AntiSnore.changeLevel).mapAnti AntiSnore.simulateDetectionPeriod

/-- The increment of `snore_intervention_trig`. -/
def countTrig (d : Dock) : Dock :=
  let t := d.sys.bleTestinfo
  let t' := { t with snoreInterventionTrig := satInc t.snoreInterventionTrig }
  { d with sys := { d.sys with bleTestinfo := t' } }

/-- The body of `if (trig == 1U)` in `SnoringIntervention_run`. -/
def runTriggered (d : Dock) : Dock :=
  let pwm := d.anti.snoreIntervention.snoreInterventionPwm
  let tmrSeg := d.anti.snoreLiftTmrSegSeconds
  let d₁ := d.mapAnti AntiSnore.settle
  if d₁.anti.LiftDecided then
    (d₁.snoreLiftStart pwm tmrSeg).countTrig.mapAnti AntiSnore.countLift
  else d₁

/-- `SnoringIntervention_run`. -/
def snoringInterventionRun (d : Dock) : Dock :=
  if d.runPrelude.anti.snoreIntervention.enable then
    if d.runDetect.anti.snoreIntervention.trig = 1 then d.runDetect.runTriggered
    else d.runDetect
  else d.runPrelude

end Dock
end ErgoDock
