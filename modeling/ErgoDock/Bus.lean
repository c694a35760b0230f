import ErgoDock.Runs

/-! # The controller and the bus queue

What moves the bed is on the transmit queue.  `Bus` keeps what decides about it, the clock,
the end of the running lift segment and the queue; `BusOp` are the operations on it, and
`step_bus` says that the firmware simulates them: an event amounts to the list `busOps` of
operations.  The results about motion are proved on this machine. -/

namespace ErgoDock

open Machine

structure Bus where
  timer : UInt32
  segEnd : UInt32
  mfp : MfpQueue

namespace Bus
variable (b : Bus)

/-- `mfp_send_request`. -/
def send (r : MfpTxRequest) : Bus := { b with mfp := (b.mfp.mfpSendRequest r).2 }

/-- The request of `snore_lift_stop_and_release`: no key, three times. -/
def releaseRequest : MfpTxRequest := ⟨normalKetFrame 0, 3, .release⟩

/-- `snore_lift_stop_and_release`. -/
def release : Bus := { b with segEnd := 0, mfp := b.mfp.mfpTxQueueClear }.send releaseRequest

/-- Release the segment that is running, if any. -/
def stop : Bus := if b.segEnd ≠ 0 then b.release else b

/-- The request of `snore_lift_enqueue_pulse` for a frame. -/
def pulseRequest (frame : List UInt8) : MfpTxRequest := ⟨frame, 2, .lift b.timer b.segEnd⟩

/-- `snore_lift_enqueue_pulse`. -/
def pulse (frame : List UInt8) : Bus := b.send (b.pulseRequest frame)

/-- `snore_lift_start`. -/
def start (ticks : UInt32) (frame : List UInt8) : Bus :=
  { b.stop with segEnd := b.stop.timer + ticks }.pulse frame

/-- `snore_lift_process_tick`. -/
def process (frame : List UInt8) : Bus :=
  if b.segEnd = 0 then b
  else if b.timer ≥ b.segEnd then b.release
  else if b.mfp.mfpTxQueueIsEmpty then b.pulse frame
  else b

end Bus

/-- The operations events amount to on the bus. -/
inductive BusOp where
  | tick
  | transmit
  | clear
  | send (r : MfpTxRequest)
  | stop
  | process (frame : List UInt8)
  | start (ticks : UInt32) (frame : List UInt8)
deriving DecidableEq, Repr

/-- The effect of an operation. -/
def BusOp.apply (b : Bus) : BusOp → Bus
  | .tick => { b with timer := b.timer + 1 }
  | .transmit => { b with mfp := b.mfp.mfpTxTask }
  | .clear => { b with mfp := b.mfp.mfpTxQueueClear }
  | .send r => b.send r
  | .stop => b.stop
  | .process frame => b.process frame
  | .start ticks frame => b.start ticks frame

/-! ### The operations of an event -/

namespace Dock
variable (d : Dock)

def bus : Bus := ⟨d.anti.timer, d.anti.snoreIntervention.liftSegEndTick, d.mfp⟩

/-- The frame of a lift pulse. -/
def liftFrame (pwm : UInt8) : List UInt8 :=
  let key := if d.voice.bedType = 1 then keyM1Out ||| keyM2Out else keyM1Out
  if d.mfpMainboxSupportsSoftStart then softStartFrame key pwm 1 else normalKetFrame key

/-- The PWM and the seconds of the segment a run would start. -/
def segParams : UInt8 × UInt8 :=
  snoreLiftParams d.mfpMainboxSupportsSoftStart d.anti.snoreIntervention.snoreInterventionPwm
    d.anti.snoreLiftTmrSegSeconds

/-- The ticks of the segment a run would start. -/
def segTicks : UInt32 := d.segParams.2.toUInt32 * 100

/-- The periodic function. -/
def runOps : List BusOp :=
  .process (d.liftFrame d.anti.snoreIntervention.liftSegPwm) ::
    if d.anti.StartsLift then [.start d.segTicks (d.liftFrame d.segParams.1)] else []

/-- A control word. -/
def wordBusOps (data : UInt8) : List BusOp :=
  (if data ∈ voicePositionCmds then [.stop] else []) ++
    ((if data = 0x23 ∨ data = 0x26 then [.clear] else []) ++
      match voiceKey d.voice d.sys.m1 data with
      | some (key, repeats) => [.send ⟨normalKetFrame key, repeats, .voice⟩]
      | none => [])

/-- The requests of an APP key frame. -/
def keyOps (p : List UInt8) (n : UInt8) : List BusOp :=
  let key := ofLe32 (byteAt p 0) (byteAt p 1) (byteAt p 2) (byteAt p 3)
  if n = 5 then [.send ⟨normalKetFrame key, 3, .app⟩]
  else if n = 7 then [.send ⟨softStartFrame key (byteAt p 5) (byteAt p 6), 3, .app⟩]
  else []

/-- A frame on the data port: level 0 and a change of the mode stop the segment. -/
def portOps (p : List UInt8) (n : UInt8) : List BusOp :=
  match dataPortOp d.anti p n with
  | .configure _ _ l => if l = 0 then [.stop] else []
  | .mode _ => [.stop]
  | _ => []

/-- A GATT write. -/
def bleBusOps (value : List UInt8) : List BusOp :=
  if (value.length ≤ 50 ∧ value.length ≥ 2) ∧ BleComplete value then
    if byteAt value 1 = bleAppPortInner then keyOps (value.drop 2) (byteAt value 0)
    else if byteAt value 1 = bleDataPort then d.portOps (value.drop 2) (byteAt value 0)
    else []
  else []

end Dock

/-- The operations an event amounts to on the bus. -/
def busOps (d : Dock) : Event → List BusOp
  | .tick => [.tick]
  | .snoreRun => d.runOps
  | .voiceFrame cmd data => if d.ExecutesWord cmd data then d.wordBusOps data else []
  | .mfpFrame raw => if Dock.Uart1Valid raw then [.transmit] else []
  | .bleWrite value => d.bleBusOps value
  | _ => []

/-! ### The firmware simulates the operations -/

namespace Dock

/-- Background work leaves the bus alone. -/
theorem Background.bus {d d' : Dock} (h : Background d d') : d'.bus = d.bus := by
  rw [Dock.bus, h.anti, h.mfp, Dock.bus]

section functions
variable (d : Dock)

theorem bus_mapAnti {f : AntiSnore → AntiSnore} (h : ∀ a, (f a).timer = a.timer ∧
    (f a).snoreIntervention.liftSegEndTick = a.snoreIntervention.liftSegEndTick) :
    (d.mapAnti f).bus = d.bus := by
  rw [bus, anti_mapAnti, (h _).1, (h _).2, mfp_mapAnti, bus]

theorem bus_emit (o : Output) : (d.emit o).bus = d.bus := rfl

/-! ### The segment -/

theorem bus_enqueuePulse (pwm : UInt8) :
    (d.snoreLiftEnqueuePulse pwm).bus = d.bus.pulse (d.liftFrame pwm) := by
  simp only [snoreLiftEnqueuePulse, liftFrame]
  split <;> rfl

theorem bus_stopAndRelease : d.snoreLiftStopAndRelease.bus = d.bus.release := rfl

theorem bus_processTick :
    d.snoreLiftProcessTick.bus =
      d.bus.process (d.liftFrame d.anti.snoreIntervention.liftSegPwm) := by
  simp only [snoreLiftProcessTick, Bus.process]
  by_cases h0 : d.anti.snoreIntervention.liftSegEndTick = 0
  · have hb : d.bus.segEnd = 0 := h0
    rw [if_pos h0, if_pos hb]
  have hb : ¬ d.bus.segEnd = 0 := h0
  rw [if_neg h0, if_neg hb]
  by_cases ht : d.anti.timer ≥ d.anti.snoreIntervention.liftSegEndTick
  · have hb : d.bus.timer ≥ d.bus.segEnd := ht
    rw [if_pos ht, if_pos hb, bus_stopAndRelease]
  · have hb : ¬ d.bus.timer ≥ d.bus.segEnd := ht
    rw [if_neg ht, if_neg hb]
    by_cases hq : d.mfp.mfpTxQueueIsEmpty
    · have hb : d.bus.mfp.mfpTxQueueIsEmpty := hq
      rw [if_pos hq, if_pos hb, bus_enqueuePulse]
    · have hb : ¬ d.bus.mfp.mfpTxQueueIsEmpty := hq
      rw [if_neg hq, if_neg hb]

theorem bus_liftStart (pwm sec : UInt8) :
    (d.snoreLiftStart pwm sec).bus =
      let p := snoreLiftParams d.mfpMainboxSupportsSoftStart pwm sec
      d.bus.start (p.2.toUInt32 * 100) (d.liftFrame p.1) := by
  simp only [snoreLiftStart, Bus.start, Bus.stop]
  rw [bus_emit, bus_enqueuePulse]
  by_cases h : d.anti.snoreIntervention.liftSegEndTick ≠ 0
  · have hb : d.bus.segEnd ≠ 0 := h
    rw [if_pos h, if_pos hb]
    rfl
  · have hb : ¬ d.bus.segEnd ≠ 0 := h
    rw [if_neg h, if_neg hb]
    rfl

theorem bus_stateClear : d.snoringInterventStateClear.bus = d.bus.stop := by
  simp only [snoringInterventStateClear, Bus.stop]
  by_cases h : d.anti.snoreIntervention.liftSegEndTick ≠ 0
  · have hb : d.bus.segEnd ≠ 0 := h
    rw [if_pos h, if_pos hb]
    rfl
  · have hb : ¬ d.bus.segEnd ≠ 0 := h
    rw [if_neg h, if_neg hb]
    have hz : d.anti.snoreIntervention.liftSegEndTick = 0 := not_not.mp h
    rw [bus, bus, hz]
    rfl

theorem bus_runModeSet (mode : UInt8) :
    (d.snoreRunModeSet mode).bus =
      if d.anti.snoreIntervention.runMode = AntiSnore.normalMode mode then d.bus
      else d.bus.stop := by
  have hmode : (d.mapAnti fun a => a.mapSi fun si =>
      { si with runMode := AntiSnore.normalMode mode }).bus = d.bus :=
    d.bus_mapAnti fun _ => ⟨rfl, rfl⟩
  simp only [snoreRunModeSet]
  split
  · rfl
  · rw [bus_mapAnti (f := AntiSnore.snoreRefreshTrigTimer) _ fun _ => ⟨rfl, rfl⟩,
      bus_mapAnti (f := AntiSnore.snoringInterventFlatTimerClear) _ fun _ => ⟨rfl, rfl⟩,
      bus_stateClear, hmode]

/-! ### The periodic function -/

theorem bus_runPrelude :
    d.runPrelude.bus = d.bus.process (d.liftFrame d.anti.snoreIntervention.liftSegPwm) := by
  have hcycle : ∀ a : AntiSnore, a.snoreTryCycleResetTick.timer = a.timer ∧
      a.snoreTryCycleResetTick.snoreIntervention.liftSegEndTick =
        a.snoreIntervention.liftSegEndTick ∧
      a.snoreTryCycleResetTick.snoreIntervention.liftSegPwm = a.snoreIntervention.liftSegPwm := by
    intro a
    rw [AntiSnore.snoreTryCycleResetTick]
    split
    · exact ⟨rfl, rfl, rfl⟩
    · split <;> exact ⟨rfl, rfl, rfl⟩
  have hpwm : ∀ c : Dock, (c.mapAnti AntiSnore.snoreTryCycleResetTick).liftFrame
      (c.mapAnti AntiSnore.snoreTryCycleResetTick).anti.snoreIntervention.liftSegPwm =
        c.liftFrame c.anti.snoreIntervention.liftSegPwm := by
    intro c
    rw [anti_mapAnti, (hcycle _).2.2]
    rfl
  rw [runPrelude, bus_processTick, hpwm, bus_mapAnti _ fun a => ⟨(hcycle a).1, (hcycle a).2.1⟩]
  rfl

theorem bus_runDetect : d.runDetect.bus = d.runPrelude.bus := by
  have hlevel := fun a : AntiSnore => a.sameClock_changeLevel
  have hdetect := fun a : AntiSnore => a.sameClock_simulateDetectionPeriod
  rw [runDetect, bus_mapAnti _ fun a => ⟨(hdetect a).timer, (hdetect a).liftSegEndTick⟩,
    bus_mapAnti _ fun a => ⟨(hlevel a).timer, (hlevel a).liftSegEndTick⟩]

theorem liftFrame_runPrelude (pwm : UInt8) : d.runPrelude.liftFrame pwm = d.liftFrame pwm := by
  have hv : d.runPrelude.voice = d.voice := by
    simp only [runPrelude, snoreLiftProcessTick, snoreLiftEnqueuePulse]
    split
    · rfl
    · split
      · rfl
      · split
        · split <;> rfl
        · rfl
  rw [liftFrame, soft_runPrelude, hv, liftFrame]

theorem liftFrame_mapAnti (f : AntiSnore → AntiSnore) (pwm : UInt8) :
    (d.mapAnti f).liftFrame pwm = d.liftFrame pwm := rfl

theorem liftFrame_runDetect (pwm : UInt8) : d.runDetect.liftFrame pwm = d.liftFrame pwm := by
  rw [runDetect, liftFrame_mapAnti, liftFrame_mapAnti, liftFrame_runPrelude]

theorem bus_runTriggered (h : d.anti.LiftDecided) :
    d.runTriggered.bus = d.bus.start d.segTicks (d.liftFrame d.segParams.1) := by
  have hd : (d.mapAnti AntiSnore.settle).anti.LiftDecided := h
  have hcount : ∀ c : Dock, c.countTrig.bus = c.bus := fun _ => rfl
  have hbus : (d.mapAnti AntiSnore.settle).bus = d.bus := rfl
  have hsoft : (d.mapAnti AntiSnore.settle).mfpMainboxSupportsSoftStart =
      d.mfpMainboxSupportsSoftStart := rfl
  rw [runTriggered, if_pos hd, bus_mapAnti (f := AntiSnore.countLift) _ fun _ => ⟨rfl, rfl⟩,
    hcount, bus_liftStart, hbus, hsoft]
  rfl

theorem bus_runTriggered_of_not (h : ¬ d.anti.LiftDecided) : d.runTriggered.bus = d.bus := by
  have hd : ¬ (d.mapAnti AntiSnore.settle).anti.LiftDecided := h
  rw [runTriggered, if_neg hd]
  rfl

theorem segParams_runDetect : d.runDetect.segParams = d.segParams := by
  have h := d.anti.sameClock_runDetect
  have hp := h.pwm.trans d.anti.runPrelude_pwm
  have ht := h.tmr.trans d.anti.runPrelude_tmr
  rw [segParams, soft_runDetect, anti_runDetect, hp, AntiSnore.snoreLiftTmrSegSeconds, ht,
    segParams, AntiSnore.snoreLiftTmrSegSeconds]

theorem bus_snoringInterventionRun :
    d.snoringInterventionRun.bus = exec BusOp.apply d.bus d.runOps := by
  have hpre := d.bus_runPrelude
  have hseg := d.segParams_runDetect
  rw [runOps, exec_cons, BusOp.apply, ← hpre, ← bus_runDetect]
  by_cases h : d.anti.StartsLift
  · have hd : d.runDetect.anti.LiftDecided := by
      rw [anti_runDetect]
      exact h.2.2
    have hrun : d.snoringInterventionRun = d.runDetect.runTriggered := by
      rw [snoringInterventionRun, anti_runPrelude, anti_runDetect,
        if_pos (by simpa using h.1), if_pos h.2.1]
    rw [if_pos h, hrun, bus_runTriggered _ hd, segTicks, hseg,
      liftFrame_runDetect]
    rfl
  · rw [if_neg h, exec_nil, snoringInterventionRun, anti_runPrelude, anti_runDetect]
    split
    · next he =>
      split
      · next ht =>
        have hd : ¬ d.runDetect.anti.LiftDecided := by
          rw [anti_runDetect]
          exact fun hd => h ⟨by simpa using he, ht, hd⟩
        exact bus_runTriggered_of_not _ hd
      · rfl
    · exact d.bus_runDetect.symm

/-! ### Voice words -/

theorem bus_voiceDetailInc (cmd : UInt8) : (d.bleTestinfoVoiceDetailInc cmd).bus = d.bus := by
  simp only [bleTestinfoVoiceDetailInc]
  split <;> rfl

theorem bus_cancelOnVoicePosition (cmd : UInt8) :
    (d.snoreInterventionCancelOnVoicePosition cmd).bus =
      exec BusOp.apply d.bus (if cmd ∈ voicePositionCmds then [.stop] else []) := by
  simp only [snoreInterventionCancelOnVoicePosition]
  split
  · split
    · rw [bus_mapAnti (f := AntiSnore.snoringInterventFlatTimerClear) _ fun _ => ⟨rfl, rfl⟩,
        bus_stateClear]
      rfl
    · exact d.bus_stateClear
  · rfl

theorem bus_voiceDispatch (cmd : UInt8) :
    (d.voiceDispatch cmd).bus =
      exec BusOp.apply d.bus ((if cmd = 0x23 ∨ cmd = 0x26 then [BusOp.clear] else []) ++
        match voiceKey d.voice d.sys.m1 cmd with
        | some (key, repeats) => [BusOp.send ⟨normalKetFrame key, repeats, .voice⟩]
        | none => []) := by
  simp only [voiceDispatch]
  rw [exec_append]
  cases voiceKey d.voice d.sys.m1 cmd with
  | none => dsimp only; split <;> rfl
  | some kr => dsimp only; split <;> rfl

/-- What the key of a word depends on is kept by the cancellation. -/
theorem voiceKey_cancelOnVoicePosition (cmd : UInt8) :
    (d.snoreInterventionCancelOnVoicePosition cmd).voice = d.voice ∧
      (d.snoreInterventionCancelOnVoicePosition cmd).sys.m1 = d.sys.m1 := by
  have hclear : d.snoringInterventStateClear.voice = d.voice ∧
      d.snoringInterventStateClear.sys.m1 = d.sys.m1 := by
    simp only [snoringInterventStateClear]
    split <;> exact ⟨rfl, rfl⟩
  simp only [snoreInterventionCancelOnVoicePosition]
  split
  · split <;> exact hclear
  · exact ⟨rfl, rfl⟩

theorem bus_offlineVoiceDataHandle {cmd : UInt8} (h₁ : cmd ≠ 0x21) (h₂ : cmd ≠ 0x22) :
    (d.offlineVoiceDataHandle cmd).bus = exec BusOp.apply d.bus (d.wordBusOps cmd) := by
  have hinc : (d.bleTestinfoVoiceDetailInc cmd).voice = d.voice ∧
      (d.bleTestinfoVoiceDetailInc cmd).sys.m1 = d.sys.m1 := by
    simp only [bleTestinfoVoiceDetailInc]
    split <;> exact ⟨rfl, rfl⟩
  have hbus := d.bus_voiceDetailInc cmd
  simp only [offlineVoiceDataHandle]
  rw [if_neg (by simp [h₁, h₂]), wordBusOps, exec_append, ← hinc.1, ← hinc.2, ← hbus]
  generalize d.bleTestinfoVoiceDetailInc cmd = c
  rw [bus_voiceDispatch, bus_cancelOnVoicePosition, (voiceKey_cancelOnVoicePosition _ _).1,
    (voiceKey_cancelOnVoicePosition _ _).2]
  rfl

theorem bus_wakeWordAgain {cmd : UInt8} (h : cmd = 0x21 ∨ cmd = 0x22) :
    (d.offlineVoiceDataHandle cmd).bus = d.bus := by
  simp only [offlineVoiceDataHandle]
  rw [if_pos h]
  exact d.bus_voiceDetailInc cmd

theorem bus_offlineVoiceWakeUp : d.offlineVoiceWakeUp.bus = d.bus := by
  simp only [offlineVoiceWakeUp]
  split
  · exact bus_voiceDetailInc _ _
  · split
    · exact bus_voiceDetailInc _ _
    · rfl

theorem bus_offlineVoiceHandle (cmd data : UInt8) :
    (d.offlineVoiceHandle cmd data).bus =
      exec BusOp.apply d.bus (if d.ExecutesWord cmd data then d.wordBusOps data else []) := by
  simp only [offlineVoiceHandle]
  by_cases hk : d.voice.keyEnable = false
  · have hne : ¬ d.ExecutesWord cmd data := fun he => by simp [he.1] at hk
    rw [if_pos hk, if_neg hne]
    split <;> rfl
  rw [if_neg hk]
  have hopen : d.voiceState ≠ .disabled →
      (if cmd = 0x81 then { d.offlineVoiceDataHandle data with voiceState := .active }
        else if cmd = 0x82 then { d.offlineVoiceWakeOff with voiceState := .disabled }
        else d).bus =
      exec BusOp.apply d.bus (if d.ExecutesWord cmd data then d.wordBusOps data else []) := by
    intro hs
    by_cases hc : cmd = 0x81
    · by_cases hw : data = 0x21 ∨ data = 0x22
      · have hne : ¬ d.ExecutesWord cmd data := fun he => hw.elim he.2.2.2.1 he.2.2.2.2
        rw [if_pos hc, if_neg hne]
        exact d.bus_wakeWordAgain hw
      · have hw' := not_or.mp hw
        have he : d.ExecutesWord cmd data := ⟨by simpa using hk, hs, hc, hw'⟩
        rw [if_pos hc, if_pos he]
        exact d.bus_offlineVoiceDataHandle hw'.1 hw'.2
    · have hne : ¬ d.ExecutesWord cmd data := fun he => hc he.2.2.1
      rw [if_neg hc, if_neg hne]
      split <;> rfl
  cases hs : d.voiceState with
  | disabled =>
      have hne : ¬ d.ExecutesWord cmd data := fun he => he.2.1 hs
      rw [if_neg hne]
      dsimp only
      split
      · exact bus_offlineVoiceWakeUp _
      · rfl
  | wakeWordDetected => exact hopen (by simp [hs])
  | active => exact hopen (by simp [hs])

/-! ### APP frames -/

theorem bus_bleAppKeyDispatch (p : List UInt8) (n : UInt8) :
    (d.bleAppKeyDispatch p n).bus = exec BusOp.apply d.bus (keyOps p n) := by
  simp only [bleAppKeyDispatch, keyOps]
  split
  · rfl
  · split <;> rfl

theorem bus_bleSnoreConfigure (pwm tmr l : UInt8) :
    (d.bleSnoreConfigure pwm tmr l).bus =
      exec BusOp.apply d.bus (if l = 0 then [.stop] else []) := by
  simp only [bleSnoreConfigure]
  rw [(background_flashSave _).bus]
  split
  · rw [bus_stateClear]
    rfl
  · rfl

theorem bus_dataPortEffect (p : List UInt8) (n : UInt8) :
    (d.dataPortEffect p n).bus = exec BusOp.apply d.bus (d.portOps p n) := by
  rw [dataPortEffect, portOps, dataPortOp]
  by_cases hb : SetsBed p n
  · have hs : ¬ SetsSnore p n := fun hs => absurd (hb.2.1.symm.trans hs.2.1) (by decide)
    have hm : ¬ SetsMode d.anti p n := fun hm => absurd (hb.2.1.symm.trans hm.2.1) (by decide)
    rw [if_pos hb, if_neg hs, if_neg hm]
    rfl
  rw [if_neg hb]
  by_cases hs : SetsSnore p n
  · rw [if_pos hs, if_pos hs]
    exact d.bus_bleSnoreConfigure _ _ _
  rw [if_neg hs, if_neg hs]
  by_cases hc : CarriesMode p n
  · rw [if_pos hc, bus_runModeSet, normalMode_of_le hc.2.2.2]
    by_cases hr : d.anti.snoreIntervention.runMode = byteAt p 2
    · have hm : ¬ SetsMode d.anti p n := fun hm => ((setsMode_iff _ _ _).mp hm).2 hr
      rw [if_pos hr, if_neg hm]
      rfl
    · have hm : SetsMode d.anti p n := (setsMode_iff _ _ _).mpr ⟨hc, hr⟩
      rw [if_neg hr, if_pos hm]
      rfl
  · have hm : ¬ SetsMode d.anti p n := fun hm => hc ((setsMode_iff _ _ _).mp hm).1
    rw [if_neg hc, if_neg hm]
    rfl

theorem bus_uartServerWriteReq (value : List UInt8) :
    (d.uartServerWriteReq value).bus = exec BusOp.apply d.bus (d.bleBusOps value) := by
  rw [(d.background_uartServerWriteReq value).bus, bleEffect, bleBusOps]
  by_cases ha : Accepted value
  · have ha' : (value.length ≤ 50 ∧ value.length ≥ 2) ∧ BleComplete value := ha
    rw [if_pos ha, if_pos ha']
    split
    · rw [← bus_bleAppKeyDispatch]
      exact bus_mapAnti _ fun _ => ⟨rfl, rfl⟩
    · split
      · exact d.bus_dataPortEffect _ _
      · rfl
  · have ha' : ¬ ((value.length ≤ 50 ∧ value.length ≥ 2) ∧ BleComplete value) := ha
    rw [if_neg ha, if_neg ha']
    rfl

/-! ### Keys, lines and the whole step -/

theorem bus_xUart1DateReceiveHandle (raw : List UInt8) :
    (d.xUart1DateReceiveHandle raw).bus =
      exec BusOp.apply d.bus (if Uart1Valid raw then [.transmit] else []) := by
  have hcmd : (d.uart1CmdHandle raw).bus = d.bus := by
    simp only [uart1CmdHandle, bus, anti]
    split <;> rfl
  simp only [xUart1DateReceiveHandle]
  split
  · rw [exec_cons, BusOp.apply, exec_nil, ← hcmd]
    rfl
  · rfl

theorem bus_xUart3DateReceiveHandle (raw : List UInt8) :
    (d.xUart3DateReceiveHandle raw).bus = d.bus := by
  simp only [xUart3DateReceiveHandle]
  split
  · refine (bus_mapAnti _ fun a => ?_).trans rfl
    split <;> exact ⟨rfl, rfl⟩
  · rfl

theorem bus_checkOfflineVoiceKeys (key1 key2 : UInt8) :
    (d.checkOfflineVoiceKeys key1 key2).bus = d.bus := by
  have hsw : ∀ (c : Dock) (raw : UInt8), (c.applySwitch raw key1 key2).bus = c.bus := by
    intro c raw
    simp only [applySwitch]
    split
    · split <;> rfl
    · rfl
  simp only [checkOfflineVoiceKeys]
  split
  · rfl
  · exact ((background_ci1302Sync _ _).bus).trans (hsw _ _)

theorem bus_controlTimer10ms (key : UInt8) : (d.controlTimer10ms key).bus = d.bus := by
  have hset : ∀ (c : Dock) k, (c.setKeys k).bus = c.bus := fun _ _ => rfl
  have h3 : ∀ c : Dock, c.longPressKey3.bus = c.bus := fun _ => rfl
  have h4 : ∀ c : Dock, c.longPressKey4.bus = c.bus := by
    intro c
    simp only [longPressKey4]
    split <;> rfl
  have hrel : ∀ c : Dock, c.releaseKey3.bus = c.bus := fun _ => rfl
  simp only [controlTimer10ms, hset]
  split
  · rfl
  · split
    · split
      · rw [h4, hset, hset]
      · split
        · rw [h3, hset, hset]
        · rw [hset]
    · split
      · split
        · rw [hrel]
        · rfl
      · rw [hset]

end functions
end Dock

/-- The firmware simulates the bus machine. -/
theorem step_bus (d : Dock) (e : Event) : (step d e).bus = exec BusOp.apply d.bus (busOps d e) := by
  cases e with
  | tick => rfl
  | switchSample key1 key2 => exact d.bus_checkOfflineVoiceKeys key1 key2
  | control key => exact d.bus_controlTimer10ms key
  | led => exact d.background_ledCtrl10msHandler.bus
  | charge status => exact (d.background_controlTimer1000ms status).bus
  | snoreEdge => rfl
  | snoreRun => exact d.bus_snoringInterventionRun
  | flashRun => exact d.background_flashSave.bus
  | voiceFrame cmd data => exact d.bus_offlineVoiceHandle cmd data
  | mfpFrame raw => exact d.bus_xUart1DateReceiveHandle raw
  | statusFrame raw => exact d.bus_xUart3DateReceiveHandle raw
  | bleWrite value => exact d.bus_uartServerWriteReq value
  | connected conIdx => exact (d.background_gapConnected conIdx).bus
  | disconnected => exact d.background_gapDisconnected.bus
  | notificationDone => rfl
  | mtuChanged mtu => rfl

/-- At the start no segment runs and the queue is untouched. -/
theorem bus_boot (b : Boot) : (boot b).bus = ⟨0, 0, {}⟩ := by
  have hload : ∀ d : Dock, d.flashLoad.bus = d.bus := by
    intro d
    simp only [Dock.flashLoad]
    split <;> rfl
  have hinit : ∀ a : AntiSnore, a.initFields.timer = a.timer ∧
      a.initFields.snoreIntervention.liftSegEndTick = a.snoreIntervention.liftSegEndTick :=
    fun _ => ⟨rfl, rfl⟩
  rw [boot, Dock.xUartInit, (Dock.background_ci1302Sync _ _).bus, Dock.bus_checkOfflineVoiceKeys,
    Dock.snoringInterventionInit,
    Dock.bus_mapAnti (f := AntiSnore.snoringInterventFlatTimerClear) _ fun _ => ⟨rfl, rfl⟩,
    Dock.bus_stateClear, Dock.bus_mapAnti _ hinit, hload]
  rfl

/-! ### Who does what

Only a command of the user sends a request of its own, and only a run that starts a lift begins
a segment. -/

/-- Neither a request nor a new segment. -/
def BusOp.Quiet : BusOp → Prop
  | .send _ | .start .. => False
  | _ => True

/-- A request that is no lift pulse. -/
def BusOp.Command : BusOp → Prop
  | .send r => r.origin.isLift = false
  | _ => False

/-- A key frame of the APP, in its short or long form. -/
def KeyWrite (value : List UInt8) : Prop :=
  ((value.length ≤ 50 ∧ value.length ≥ 2) ∧ Dock.BleComplete value) ∧
    byteAt value 1 = bleAppPortInner ∧ (byteAt value 0 = 5 ∨ byteAt value 0 = 7)

instance (value : List UInt8) : Decidable (KeyWrite value) := by unfold KeyWrite; infer_instance

/-- The step is a command of the user: a control word or a key frame of the APP. -/
def UserCommand (d : Dock) : Event → Prop
  | .voiceFrame cmd data => d.ExecutesWord cmd data
  | .bleWrite value => KeyWrite value
  | _ => False

instance (d : Dock) : (e : Event) → Decidable (UserCommand d e)
  | .voiceFrame cmd data => inferInstanceAs (Decidable (d.ExecutesWord cmd data))
  | .bleWrite value => inferInstanceAs (Decidable (KeyWrite value))
  | .tick | .switchSample _ _ | .control _ | .led | .charge _ | .snoreEdge | .snoreRun | .flashRun
  | .mfpFrame _ | .statusFrame _ | .connected _ | .disconnected | .notificationDone
  | .mtuChanged _ => .isFalse id

theorem mem_wordBusOps {d : Dock} {data : UInt8} {op : BusOp} (h : op ∈ d.wordBusOps data) :
    op.Quiet ∨ op.Command := by
  rw [Dock.wordBusOps] at h
  rcases List.mem_append.mp h with h | h
  · split at h
    · rw [List.mem_singleton.mp h]
      exact .inl trivial
    · cases h
  · rcases List.mem_append.mp h with h | h
    · split at h
      · rw [List.mem_singleton.mp h]
        exact .inl trivial
      · cases h
    · split at h
      · rw [List.mem_singleton.mp h]
        exact .inr rfl
      · cases h

theorem mem_keyOps {p : List UInt8} {n : UInt8} {op : BusOp} (h : op ∈ Dock.keyOps p n) :
    op.Command ∧ (n = 5 ∨ n = 7) := by
  simp only [Dock.keyOps] at h
  split at h
  · next h5 =>
    rw [List.mem_singleton.mp h]
    exact ⟨rfl, .inl h5⟩
  · split at h
    · next h7 =>
      rw [List.mem_singleton.mp h]
      exact ⟨rfl, .inr h7⟩
    · cases h

theorem mem_portOps {d : Dock} {p : List UInt8} {n : UInt8} {op : BusOp}
    (h : op ∈ d.portOps p n) : op.Quiet := by
  rw [Dock.portOps] at h
  split at h
  · split at h
    · rw [List.mem_singleton.mp h]
      trivial
    · cases h
  · rw [List.mem_singleton.mp h]
    trivial
  · cases h

/-- A write asks for nothing, for the end of the segment, or for one transmission. -/
theorem Dock.bleBusOps_cases (d : Dock) (value : List UInt8) :
    d.bleBusOps value = [] ∨ d.bleBusOps value = [.stop] ∨
      ∃ r, d.bleBusOps value = [.send r] := by
  rw [bleBusOps]
  split
  · split
    · rw [keyOps]
      split
      · exact .inr (.inr ⟨_, rfl⟩)
      · split
        · exact .inr (.inr ⟨_, rfl⟩)
        · exact .inl rfl
    · split
      · rw [portOps]
        split
        · split
          · exact .inr (.inl rfl)
          · exact .inl rfl
        · exact .inr (.inl rfl)
        · exact .inl rfl
      · exact .inl rfl
  · exact .inl rfl

theorem mem_bleBusOps {d : Dock} {value : List UInt8} {op : BusOp} (h : op ∈ d.bleBusOps value) :
    op.Quiet ∨ op.Command ∧ KeyWrite value := by
  rw [Dock.bleBusOps] at h
  split at h
  · next hc =>
    split at h
    · next hport =>
      have hk := mem_keyOps h
      exact .inr ⟨hk.1, hc, hport, hk.2⟩
    · split at h
      · exact .inl (mem_portOps h)
      · cases h
  · cases h

theorem mem_busOps {d : Dock} {e : Event} {op : BusOp} (h : op ∈ busOps d e) :
    op.Quiet ∨ op.Command ∧ UserCommand d e ∨ e = .snoreRun ∧ d.anti.StartsLift := by
  cases e with
  | tick =>
      rw [List.mem_singleton.mp h]
      exact .inl trivial
  | snoreRun =>
      by_cases hs : d.anti.StartsLift
      · exact .inr (.inr ⟨rfl, hs⟩)
      · rw [busOps, Dock.runOps, if_neg hs] at h
        rw [List.mem_singleton.mp h]
        exact .inl trivial
  | voiceFrame cmd data =>
      rw [busOps] at h
      split at h
      · next hx => exact (mem_wordBusOps h).imp_right fun hc => .inl ⟨hc, hx⟩
      · cases h
  | mfpFrame raw =>
      rw [busOps] at h
      split at h
      · rw [List.mem_singleton.mp h]
        exact .inl trivial
      · cases h
  | bleWrite value => exact (mem_bleBusOps h).imp_right fun hc => .inl ⟨hc.1, hc.2⟩
  | _ => cases h

end ErgoDock
