import ErgoDock.Views

/-! # The controller with the bus forgotten

What a step of the firmware does to the anti-snore record depends on the record and on very
little else: the operation the event amounts to (`AntiOp`) and, for the periodic function,
whether the main box supports a soft start.  `AntiOp.apply` is this smaller machine, and
`step_anti` says that the firmware simulates it step by step.  The results about levels,
windows and cycles are proved on it. -/

namespace ErgoDock

open Machine

/-! ### The operations on the record -/

namespace AntiSnore

/-- `SnoringInterventStateClear` on the record. -/
def stateClear (a : AntiSnore) : AntiSnore :=
  a.snoreLiftResetState.snoringInterventDetectionReset.clearLiftStage

/-- `snore_run_mode_set` on the record, once the mode does change. -/
def changeMode (a : AntiSnore) (m : UInt8) : AntiSnore :=
  (a.mapSi fun si => { si with runMode := m }).stateClear.snoringInterventFlatTimerClear
    |>.snoreRefreshTrigTimer

/-- `snore_lift_process_tick` on the record. -/
def processTick (a : AntiSnore) : AntiSnore :=
  if a.snoreIntervention.liftSegEndTick ≠ 0 ∧ a.timer ≥ a.snoreIntervention.liftSegEndTick then
    a.snoreLiftResetState
  else a

/-- The first part of `SnoringIntervention_run` on the record. -/
def runPrelude (a : AntiSnore) : AntiSnore :=
  a.readAntiSnoreIntensity.snoreTryCycleResetTick.processTick

/-- Level change and detection, the middle part of `SnoringIntervention_run`. -/
def runDetect (a : AntiSnore) : AntiSnore := a.runPrelude.changeLevel.simulateDetectionPeriod

/-- `snore_lift_start` on the record. -/
def liftStart (a : AntiSnore) (soft : Bool) (pwm tmrSegSec : UInt8) : AntiSnore :=
  let p := Dock.snoreLiftParams soft pwm tmrSegSec
  a.mapSi fun si =>
    { si with liftSegPwm := p.1, liftSegEndTick := a.timer + p.2.toUInt32 * 100 }

/-- The last part of `SnoringIntervention_run` on the record. -/
def runTriggered (a : AntiSnore) (soft : Bool) : AntiSnore :=
  if a.settle.LiftDecided then
    (a.settle.liftStart soft a.snoreIntervention.snoreInterventionPwm
      a.snoreLiftTmrSegSeconds).countLift
  else a.settle

/-- `SnoringIntervention_run` on the record. -/
def run (a : AntiSnore) (soft : Bool) : AntiSnore :=
  if a.runPrelude.snoreIntervention.enable then
    if a.runDetect.snoreIntervention.trig = 1 then a.runDetect.runTriggered soft else a.runDetect
  else a.runPrelude

/-- The next level of key 3. -/
def nextLevel (l : UInt8) : UInt8 := if l < 3 then l + 1 else 1

/-- An accepted `11 B7` frame on the record. -/
def configure (a : AntiSnore) (pwm tmr l : UInt8) : AntiSnore :=
  let a₁ := { a with antiSnoreIntensity := l }.mapSi fun si =>
    { si with snoreInterventionPwm := pwm, snoreInterventionTmr := tmr, enable := l != 0 }
  if l = 0 then (a₁.mapSi fun si => { si with triggeredFlag := false }).stateClear else a₁

end AntiSnore

/-- The operations events amount to on the anti-snore record. -/
inductive AntiOp where
  | keep
  | tick
  | edge
  | levelOff
  | levelStep
  | configure (pwm tmr l : UInt8)
  | mode (m : UInt8)
  | clear
  | flat
  | report
  | volume (v : UInt16) (counted : Bool)
  | run (soft : Bool)
deriving DecidableEq, Repr

/-- The effect of an operation. -/
def AntiOp.apply (a : AntiSnore) : AntiOp → AntiSnore
  | .keep => a
  | .tick => { a with timer := a.timer + 1 }
  | .edge => { a with sf := { a.sf with snoreNub := a.sf.snoreNub + 1 } }
  | .levelOff => { a with antiSnoreIntensity := 0 }
  | .levelStep => { a with antiSnoreIntensity := AntiSnore.nextLevel a.antiSnoreIntensity }
  | .configure pwm tmr l => a.configure pwm tmr l
  | .mode m => a.changeMode m
  | .clear => a.stateClear
  | .flat => a.stateClear.snoringInterventFlatTimerClear
  | .report => a.mapSi fun si => { si with triging := if si.isIntervening then 1 else 0 }
  | .volume v counted =>
      let sf := { a.sf with snorevolume := v }
      if counted ∧ a.snoreIntervention.enable then
        { a with sf := { sf with
          snorevolumeAcc := sf.snorevolumeAcc + v.toUInt32
          snorevolumeCnt := sf.snorevolumeCnt + 1 } }
      else { a with sf := sf }
  | .run soft => a.run soft

/-! ### The operation of an event -/

/-- The 500th repeat of key 3. -/
def KeyStatics.LongPress3 (k : KeyStatics) (key : UInt8) : Prop :=
  k.lastKey = appKeyNum3 ∧ key = appKeyNum3 ∧ k.keyRepeat = 499

instance (k : KeyStatics) (key : UInt8) : Decidable (k.LongPress3 key) := by
  unfold KeyStatics.LongPress3; infer_instance

/-- The release of key 3 that is not the end of a long press. -/
def KeyStatics.Release3 (k : KeyStatics) (key : UInt8) : Prop :=
  k.lastKey = appKeyNum3 ∧ key = 0 ∧ k.keysIgnore = false

instance (k : KeyStatics) (key : UInt8) : Decidable (k.Release3 key) := by
  unfold KeyStatics.Release3; infer_instance

/-- A control word on the record. -/
def wordOp (data : UInt8) : AntiOp :=
  if data ∈ Dock.voicePositionCmds then if data ∈ Dock.voiceFlatCmds then .flat else .clear
  else .keep

/-- A `13 B7` frame that does change the run mode. -/
def SetsMode (a : AntiSnore) (p : List UInt8) (n : UInt8) : Prop :=
  n ≥ 3 ∧ byteAt p 0 = 0x13 ∧ byteAt p 1 = 0xB7 ∧ byteAt p 2 ≤ snoreRunModeTest ∧
    a.snoreIntervention.runMode ≠ byteAt p 2

instance (a : AntiSnore) (p : List UInt8) (n : UInt8) : Decidable (SetsMode a p n) := by
  unfold SetsMode; infer_instance

/-- A frame on the data port, on the record. -/
def dataPortOp (a : AntiSnore) (p : List UInt8) (n : UInt8) : AntiOp :=
  if SetsSnore p n then .configure (byteAt p 2) (byteAt p 3) (byteAt p 4)
  else if SetsMode a p n then .mode (byteAt p 2) else .keep

/-- A GATT write on the record. -/
def bleOp (a : AntiSnore) (value : List UInt8) : AntiOp :=
  if (value.length ≤ 50 ∧ value.length ≥ 2) ∧ Dock.BleComplete value then
    if byteAt value 1 = bleAppPortInner then .report
    else if byteAt value 1 = bleDataPort then dataPortOp a (value.drop 2) (byteAt value 0)
    else .keep
  else .keep

/-- The operation an event amounts to on the anti-snore record. -/
def antiOp (d : Dock) : Event → AntiOp
  | .tick => .tick
  | .control key =>
      if d.keys.LongPress3 key then .levelOff else if d.keys.Release3 key then .levelStep
      else .keep
  | .snoreEdge => .edge
  | .snoreRun => .run d.mfpMainboxSupportsSoftStart
  | .voiceFrame cmd data => if d.ExecutesWord cmd data then wordOp data else .keep
  | .statusFrame raw =>
      if Dock.Uart3Valid raw then
        .volume ((raw.getD 6 0).toUInt16 <<< 8 ||| (raw.getD 7 0).toUInt16) (raw.getD 8 0 = 1)
      else .keep
  | .bleWrite value => bleOp d.anti value
  | .switchSample _ _ | .led | .charge _ | .flashRun | .mfpFrame _ | .connected _ | .disconnected
  | .notificationDone | .mtuChanged _ => .keep

/-! ### The firmware simulates the operations

One lemma for each function that touches the record; the functions that do not are covered
by their `Background` lemma. -/

namespace Dock

section functions
variable (d : Dock)

theorem anti_enqueuePulse (pwm : UInt8) : (d.snoreLiftEnqueuePulse pwm).anti = d.anti := by
  simp only [snoreLiftEnqueuePulse]
  split <;> rfl

theorem anti_stopAndRelease : d.snoreLiftStopAndRelease.anti = d.anti.snoreLiftResetState := rfl

theorem anti_liftStart (pwm tmrSegSec : UInt8) :
    (d.snoreLiftStart pwm tmrSegSec).anti =
      d.anti.liftStart d.mfpMainboxSupportsSoftStart pwm tmrSegSec := by
  simp only [snoreLiftStart]
  rw [show ∀ (d : Dock) o, (d.emit o).anti = d.anti from fun _ _ => rfl, anti_enqueuePulse]
  split <;> rfl

theorem anti_processTick : d.snoreLiftProcessTick.anti = d.anti.processTick := by
  simp only [snoreLiftProcessTick, AntiSnore.processTick]
  by_cases h : d.anti.snoreIntervention.liftSegEndTick = 0
  · simp [h]
  · by_cases ht : d.anti.timer ≥ d.anti.snoreIntervention.liftSegEndTick
    · rw [if_neg h, if_pos ht, if_pos ⟨h, ht⟩, anti_stopAndRelease]
    · have hc : ¬ (d.anti.snoreIntervention.liftSegEndTick ≠ 0 ∧
          d.anti.timer ≥ d.anti.snoreIntervention.liftSegEndTick) := fun hc => ht hc.2
      rw [if_neg h, if_neg ht, if_neg hc]
      split
      · exact d.anti_enqueuePulse _
      · rfl

theorem anti_stateClear : d.snoringInterventStateClear.anti = d.anti.stateClear := by
  simp only [snoringInterventStateClear]
  split <;> rfl

theorem anti_runModeSet (mode : UInt8) :
    (d.snoreRunModeSet mode).anti =
      if d.anti.snoreIntervention.runMode = AntiSnore.normalMode mode then d.anti
      else d.anti.changeMode (AntiSnore.normalMode mode) := by
  simp only [snoreRunModeSet]
  split
  · rfl
  · simp only [anti_mapAnti, anti_stateClear]
    rfl

/-- What the last frame of the main box says is another part of the state. -/
theorem liftBlind_soft : LiftBlind mfpMainboxSupportsSoftStart where
  mapAnti _ _ := rfl
  mfp _ _ := rfl
  ci1302 _ _ := rfl

theorem anti_runPrelude : d.runPrelude.anti = d.anti.runPrelude := by
  simp only [runPrelude, anti_processTick]
  rfl

theorem soft_runPrelude :
    d.runPrelude.mfpMainboxSupportsSoftStart = d.mfpMainboxSupportsSoftStart :=
  liftBlind_soft.runPrelude d

theorem anti_runTriggered :
    d.runTriggered.anti = d.anti.runTriggered d.mfpMainboxSupportsSoftStart := by
  by_cases h : d.anti.settle.LiftDecided
  · have hd : (d.mapAnti AntiSnore.settle).anti.LiftDecided := h
    rw [AntiSnore.runTriggered, if_pos h, runTriggered, if_pos hd, anti_mapAnti]
    exact congrArg AntiSnore.countLift (anti_liftStart _ _ _)
  · have hd : ¬ (d.mapAnti AntiSnore.settle).anti.LiftDecided := h
    rw [AntiSnore.runTriggered, if_neg h, runTriggered, if_neg hd, anti_mapAnti]

theorem anti_runDetect : d.runDetect.anti = d.anti.runDetect := by
  rw [runDetect, anti_mapAnti, anti_mapAnti, anti_runPrelude, AntiSnore.runDetect]

theorem soft_runDetect :
    d.runDetect.mfpMainboxSupportsSoftStart = d.mfpMainboxSupportsSoftStart :=
  liftBlind_soft.runDetect d

theorem anti_snoringInterventionRun :
    d.snoringInterventionRun.anti = d.anti.run d.mfpMainboxSupportsSoftStart := by
  rw [snoringInterventionRun, AntiSnore.run, anti_runPrelude, anti_runDetect]
  split
  · split
    · rw [anti_runTriggered, anti_runDetect, soft_runDetect]
    · exact d.anti_runDetect
  · exact d.anti_runPrelude

/-! ### Voice words -/

theorem anti_voiceDetailInc (cmd : UInt8) : (d.bleTestinfoVoiceDetailInc cmd).anti = d.anti := by
  simp only [bleTestinfoVoiceDetailInc]
  split <;> rfl

theorem anti_voiceDispatch (cmd : UInt8) : (d.voiceDispatch cmd).anti = d.anti := by
  simp only [voiceDispatch]
  split <;> rfl

theorem anti_cancelOnVoicePosition (cmd : UInt8) :
    (d.snoreInterventionCancelOnVoicePosition cmd).anti = (wordOp cmd).apply d.anti := by
  simp only [snoreInterventionCancelOnVoicePosition, wordOp]
  by_cases hp : cmd ∈ voicePositionCmds
  · by_cases hf : cmd ∈ voiceFlatCmds
    · rw [if_pos hp, if_pos hp, if_pos hf, if_pos hf, anti_mapAnti, anti_stateClear]
      rfl
    · rw [if_pos hp, if_pos hp, if_neg hf, if_neg hf, anti_stateClear]
      rfl
  · rw [if_neg hp, if_neg hp]
    rfl

theorem anti_offlineVoiceDataHandle {cmd : UInt8} (h₁ : cmd ≠ 0x21) (h₂ : cmd ≠ 0x22) :
    (d.offlineVoiceDataHandle cmd).anti = (wordOp cmd).apply d.anti := by
  simp only [offlineVoiceDataHandle]
  rw [if_neg (by simp [h₁, h₂]), anti_voiceDispatch, anti_cancelOnVoicePosition]
  exact congrArg (wordOp cmd).apply (d.anti_voiceDetailInc cmd)

theorem anti_wakeWordAgain {cmd : UInt8} (h : cmd = 0x21 ∨ cmd = 0x22) :
    (d.offlineVoiceDataHandle cmd).anti = d.anti := by
  simp only [offlineVoiceDataHandle]
  rw [if_pos h]
  exact d.anti_voiceDetailInc cmd

theorem anti_offlineVoiceWakeUp : d.offlineVoiceWakeUp.anti = d.anti := by
  simp only [offlineVoiceWakeUp]
  split
  · exact anti_voiceDetailInc _ _
  · split
    · exact anti_voiceDetailInc _ _
    · rfl

theorem anti_offlineVoiceHandle (cmd data : UInt8) :
    (d.offlineVoiceHandle cmd data).anti =
      (if d.ExecutesWord cmd data then wordOp data else .keep).apply d.anti := by
  simp only [offlineVoiceHandle]
  by_cases hk : d.voice.keyEnable = false
  · have hne : ¬ d.ExecutesWord cmd data := fun he => by simp [he.1] at hk
    rw [if_pos hk, if_neg hne]
    split <;> rfl
  · rw [if_neg hk]
    have hopen : d.voiceState ≠ .disabled →
        (if cmd = 0x81 then { d.offlineVoiceDataHandle data with voiceState := .active }
          else if cmd = 0x82 then { d.offlineVoiceWakeOff with voiceState := .disabled }
          else d).anti =
        (if d.ExecutesWord cmd data then wordOp data else .keep).apply d.anti := by
      intro hs
      by_cases hc : cmd = 0x81
      · by_cases hw : data = 0x21 ∨ data = 0x22
        · have hne : ¬ d.ExecutesWord cmd data := fun he =>
            hw.elim he.2.2.2.1 he.2.2.2.2
          rw [if_pos hc, if_neg hne]
          exact d.anti_wakeWordAgain hw
        · have hw' := not_or.mp hw
          have he : d.ExecutesWord cmd data := ⟨by simpa using hk, hs, hc, hw'⟩
          rw [if_pos hc, if_pos he]
          exact d.anti_offlineVoiceDataHandle hw'.1 hw'.2
      · have hne : ¬ d.ExecutesWord cmd data := fun he => hc he.2.2.1
        rw [if_neg hc, if_neg hne]
        split <;> rfl
    cases hs : d.voiceState with
    | disabled =>
        have hne : ¬ d.ExecutesWord cmd data := fun he => he.2.1 hs
        rw [if_neg hne]
        dsimp only
        split
        · exact anti_offlineVoiceWakeUp _
        · rfl
    | wakeWordDetected => exact hopen (by simp [hs])
    | active => exact hopen (by simp [hs])

/-! ### APP frames -/

theorem anti_bleAppKeyDispatch (p : List UInt8) (n : UInt8) :
    (d.bleAppKeyDispatch p n).anti = d.anti := by
  simp only [bleAppKeyDispatch]
  split
  · rfl
  · split <;> rfl

theorem anti_bleSnoreConfigure (pwm tmr l : UInt8) :
    (d.bleSnoreConfigure pwm tmr l).anti = d.anti.configure pwm tmr l := by
  simp only [bleSnoreConfigure, AntiSnore.configure]
  rw [(background_flashSave _).anti]
  by_cases h : l = 0
  · rw [if_pos h, if_pos h, anti_stateClear]
    rfl
  · rw [if_neg h, if_neg h]
    rfl

theorem normalMode_of_le {m : UInt8} (h : m ≤ snoreRunModeTest) : AntiSnore.normalMode m = m := by
  have h01 : m = 0 ∨ m = 1 := by
    have := UInt8.le_iff_toNat_le.mp h
    simp only [snoreRunModeTest, UInt8.reduceToNat] at this
    rcases Nat.le_one_iff_eq_zero_or_eq_one.mp this with h | h
    · exact .inl (UInt8.toNat_inj.mp h)
    · exact .inr (UInt8.toNat_inj.mp h)
  rcases h01 with rfl | rfl <;> rfl

theorem setsMode_iff (a : AntiSnore) (p : List UInt8) (n : UInt8) :
    SetsMode a p n ↔ CarriesMode p n ∧ a.snoreIntervention.runMode ≠ byteAt p 2 := by
  rw [SetsMode, CarriesMode]
  tauto

theorem anti_dataPortEffect (p : List UInt8) (n : UInt8) :
    (d.dataPortEffect p n).anti = (dataPortOp d.anti p n).apply d.anti := by
  rw [dataPortEffect, dataPortOp]
  by_cases hb : SetsBed p n
  · have hs : ¬ SetsSnore p n := fun hs =>
      absurd (hb.2.1.symm.trans hs.2.1) (by decide)
    have hm : ¬ SetsMode d.anti p n := fun hm =>
      absurd (hb.2.1.symm.trans hm.2.1) (by decide)
    rw [if_pos hb, if_neg hs, if_neg hm]
    rfl
  rw [if_neg hb]
  by_cases hs : SetsSnore p n
  · rw [if_pos hs, if_pos hs]
    exact d.anti_bleSnoreConfigure _ _ _
  rw [if_neg hs, if_neg hs]
  by_cases hc : CarriesMode p n
  · rw [if_pos hc, anti_runModeSet, normalMode_of_le hc.2.2.2]
    by_cases hr : d.anti.snoreIntervention.runMode = byteAt p 2
    · have hm : ¬ SetsMode d.anti p n := fun hm => ((setsMode_iff _ _ _).mp hm).2 hr
      rw [if_pos hr, if_neg hm]
      rfl
    · have hm : SetsMode d.anti p n := (setsMode_iff _ _ _).mpr ⟨hc, hr⟩
      rw [if_neg hr, if_pos hm]
      rfl
  · have hm : ¬ SetsMode d.anti p n := fun hm => hc ((setsMode_iff _ _ _).mp hm).1
    rw [if_neg hc, if_neg hm]
    rfl

theorem anti_uartServerWriteReq (value : List UInt8) :
    (d.uartServerWriteReq value).anti = (bleOp d.anti value).apply d.anti := by
  rw [(d.background_uartServerWriteReq value).anti, bleEffect, bleOp]
  by_cases ha : Accepted value
  · have ha' : (value.length ≤ 50 ∧ value.length ≥ 2) ∧ BleComplete value := ha
    rw [if_pos ha, if_pos ha']
    split
    · rw [reportTriging, anti_mapAnti, anti_bleAppKeyDispatch]
      rfl
    · split
      · exact d.anti_dataPortEffect _ _
      · rfl
  · have ha' : ¬ ((value.length ≤ 50 ∧ value.length ≥ 2) ∧ BleComplete value) := ha
    rw [if_neg ha, if_neg ha']
    rfl

/-! ### Keys, lines and the whole step -/

theorem anti_xUart1DateReceiveHandle (raw : List UInt8) :
    (d.xUart1DateReceiveHandle raw).anti = d.anti := by
  have hcmd : (d.uart1CmdHandle raw).anti = d.anti := by
    simp only [uart1CmdHandle, anti]
    split <;> rfl
  simp only [xUart1DateReceiveHandle]
  split
  · exact hcmd
  · rfl

theorem anti_xUart3DateReceiveHandle (raw : List UInt8) :
    (d.xUart3DateReceiveHandle raw).anti = (antiOp d (.statusFrame raw)).apply d.anti := by
  simp only [xUart3DateReceiveHandle, antiOp]
  split
  · simp only [anti_mapAnti, AntiOp.apply, decide_eq_true_eq]
    rfl
  · rfl

theorem anti_checkOfflineVoiceKeys (key1 key2 : UInt8) :
    (d.checkOfflineVoiceKeys key1 key2).anti = d.anti := by
  have hsw : ∀ (c : Dock) (raw : UInt8), (c.applySwitch raw key1 key2).anti = c.anti := by
    intro c raw
    simp only [applySwitch]
    split
    · split <;> rfl
    · rfl
  simp only [checkOfflineVoiceKeys]
  split
  · rfl
  · exact ((background_ci1302Sync _ _).anti).trans (hsw _ _)

theorem anti_longPressKey4 : d.longPressKey4.anti = d.anti := by
  simp only [longPressKey4]
  split <;> rfl

theorem satInc_eq_500 (r : UInt16) : satInc r = 500 ↔ r = 499 := by
  rw [satInc]
  split
  · constructor
    · intro h
      calc r = r + 1 - 1 := by simp
        _ = 499 := by rw [h]; rfl
    · rintro rfl; rfl
  · next h =>
    constructor
    · rintro rfl; exact absurd (by decide) h
    · rintro rfl; exact absurd (by decide) h

theorem anti_controlTimer10ms (key : UInt8) :
    (d.controlTimer10ms key).anti = (antiOp d (.control key)).apply d.anti := by
  have hset : ∀ (c : Dock) k, (c.setKeys k).anti = c.anti := fun _ _ => rfl
  simp only [controlTimer10ms, antiOp, hset]
  by_cases hp : d.keys.lastKey = 0 ∧ key ≠ 0
  · have hl : ¬ d.keys.LongPress3 key := fun h => by simp [h.1, appKeyNum3] at hp
    have hr : ¬ d.keys.Release3 key := fun h => hp.2 h.2.1
    rw [if_pos hp, if_neg hl, if_neg hr]
    rfl
  rw [if_neg hp]
  by_cases hh : d.keys.lastKey = key ∧ key ≠ 0
  · have hr : ¬ d.keys.Release3 key := fun h => hh.2 h.2.1
    rw [if_pos hh, if_neg hr]
    by_cases h200 : satInc d.keys.keyRepeat = 200 ∧ key = appKeyNum4
    · have hl : ¬ d.keys.LongPress3 key := fun h => by simp [h.2.1, appKeyNum3, appKeyNum4] at h200
      rw [if_pos h200, if_neg hl, anti_longPressKey4]
      rfl
    · rw [if_neg h200]
      by_cases h500 : satInc d.keys.keyRepeat = 500 ∧ key = appKeyNum3
      · have hl : d.keys.LongPress3 key :=
          ⟨hh.1.trans h500.2, h500.2, (satInc_eq_500 _).mp h500.1⟩
        rw [if_pos h500, if_pos hl]
        rfl
      · have hl : ¬ d.keys.LongPress3 key := fun h => h500 ⟨(satInc_eq_500 _).mpr h.2.2, h.2.1⟩
        rw [if_neg h500, if_neg hl]
        rfl
  · have hl : ¬ d.keys.LongPress3 key := fun h =>
      hh ⟨h.1.trans h.2.1.symm, by simp [h.2.1, appKeyNum3]⟩
    rw [if_neg hh, if_neg hl]
    by_cases hu : d.keys.lastKey ≠ 0 ∧ key = 0
    · rw [if_pos hu]
      by_cases hr : d.keys.lastKey = appKeyNum3 ∧ d.keys.keysIgnore = false
      · have hr' : d.keys.Release3 key := ⟨hr.1, hu.2, hr.2⟩
        rw [if_pos hr, if_pos hr']
        rfl
      · have hr' : ¬ d.keys.Release3 key := fun h => hr ⟨h.1, h.2.2⟩
        rw [if_neg hr, if_neg hr']
        rfl
    · have hr' : ¬ d.keys.Release3 key := fun h => hu ⟨by simp [h.1, appKeyNum3], h.2.1⟩
      rw [if_neg hu, if_neg hr']
      rfl

end functions
end Dock

/-- The firmware simulates the record machine: what an event does to the record is the
operation it amounts to. -/
theorem step_anti (d : Dock) (e : Event) : (step d e).anti = (antiOp d e).apply d.anti := by
  cases e with
  | tick => rfl
  | switchSample key1 key2 => exact d.anti_checkOfflineVoiceKeys key1 key2
  | control key => exact d.anti_controlTimer10ms key
  | led => exact (d.background_ledCtrl10msHandler).anti
  | charge status => exact (d.background_controlTimer1000ms status).anti
  | snoreEdge => rfl
  | snoreRun => exact d.anti_snoringInterventionRun
  | flashRun => exact (d.background_flashSave).anti
  | voiceFrame cmd data => exact d.anti_offlineVoiceHandle cmd data
  | mfpFrame raw => exact d.anti_xUart1DateReceiveHandle raw
  | statusFrame raw => exact d.anti_xUart3DateReceiveHandle raw
  | bleWrite value => exact d.anti_uartServerWriteReq value
  | connected conIdx => exact (d.background_gapConnected conIdx).anti
  | disconnected => exact (d.background_gapDisconnected).anti
  | notificationDone => rfl
  | mtuChanged mtu => rfl

end ErgoDock
