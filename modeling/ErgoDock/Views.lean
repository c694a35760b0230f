import ErgoDock.System

/-! # Views of the state

A view is a function of the state.  Most handlers write a few parts of the state and nothing else; a
view that sees none of these is the same after them.  The parts are grouped by who writes them
(`LiftBlind`, `CountBlind`, `AnswerBlind`, `LedBlind`), and each function of the source has its lemma
here once, for every view that does not see what it writes.  `Blind`, `Narrow` and `Aside` put the
groups together for the handlers that write several of them. -/

namespace ErgoDock

/-- A notification handed to the BLE stack. -/
def Output.isNotify : Output → Bool
  | .notify _ _ => true
  | .uart2 _ | .startAdv | .stopAdv | .flashErase | .flashProgram _ | .liftStart _ _ _
  | .voiceCmd _ => false

/-- A log line of the lift or of the voice session. -/
def Output.isLog : Output → Bool
  | .liftStart _ _ _ | .voiceCmd _ => true
  | .uart2 _ | .notify _ _ | .startAdv | .stopAdv | .flashErase | .flashProgram _ => false

namespace Dock

/-- The view sees nothing of the anti-snore record, of the queue and of the state of the voice
chip. -/
structure LiftBlind {α : Type} (f : Dock → α) : Prop where
  mapAnti : ∀ (d : Dock) g, f (d.mapAnti g) = f d
  mfp : ∀ (d : Dock) q, f { d with mfp := q } = f d
  ci1302 : ∀ (d : Dock) c, f { d with sys := { d.sys with ci1302 := c } } = f d

/-- The view sees nothing of the counters, except perhaps the number of words counted. -/
structure CountBlind {α : Type} (f : Dock → α) : Prop where
  dbg : ∀ (d : Dock) c, f { d with dbg := c } = f d
  bleTestinfo : ∀ (d : Dock) t,
    t.voiceDetail.length = d.sys.bleTestinfo.voiceDetail.length →
      f { d with sys := { d.sys with bleTestinfo := t } } = f d

/-- The view sees nothing of the flash and of the answers to the APP. -/
structure AnswerBlind {α : Type} (f : Dock → α) : Prop where
  flash : ∀ (d : Dock) m, f { d with flash := m } = f d
  link : ∀ (d : Dock) l, f { d with link := l } = f d
  setBletx : ∀ (d : Dock) frame, f (d.setBletx frame) = f d
  notify : ∀ (d : Dock) c frame, f (d.emit (.notify c frame)) = f d
  flashErase : ∀ d : Dock, f (d.emit .flashErase) = f d
  flashProgram : ∀ (d : Dock) page, f (d.emit (.flashProgram page)) = f d

/-- The view sees nothing of the LEDs and of the pairing window; of the outputs it sees the
notifications at most. -/
structure LedBlind {α : Type} (f : Dock → α) : Prop where
  setLed : ∀ (d : Dock) m, f (d.setLed m) = f d
  ble : ∀ (d : Dock) b, f { d with sys := { d.sys with ble := b } } = f d
  emit : ∀ (d : Dock) o, o.isNotify = false → f (d.emit o) = f d

/-! ### The flash and the answers -/

namespace AnswerBlind

variable {α : Type} {f : Dock → α} (h : AnswerBlind f) (d : Dock)
include h

theorem flashSaveSnoreCfgIfChanged : f d.flashSaveSnoreCfgIfChanged = f d := by
  simp only [Dock.flashSaveSnoreCfgIfChanged, flashSnoreShadowUpdate]
  rw [h.flash]
  split
  · rw [flashSave, setSavetoflash, h.flashProgram, h.flashErase, h.flash]
  · rfl

theorem deliver (frame : Option (List UInt8)) : f (d.deliver frame) = f d := by
  cases frame with
  | none => rfl
  | some frame =>
      simp only [Dock.deliver, lsBleupServerSendNotification]
      split
      · rw [h.notify, h.link, h.setBletx]
      · exact h.setBletx d frame

end AnswerBlind

/-! ### The anti-snore controller -/

namespace LiftBlind

variable {α : Type} {f : Dock → α} (h : LiftBlind f) (d : Dock)
include h

theorem snoreLiftEnqueuePulse (pwm : UInt8) : f (d.snoreLiftEnqueuePulse pwm) = f d := by
  simp only [Dock.snoreLiftEnqueuePulse]
  split <;> exact h.mfp d _

theorem snoreLiftStopAndRelease : f d.snoreLiftStopAndRelease = f d := by
  simp only [Dock.snoreLiftStopAndRelease]
  rw [h.mfp, h.mapAnti]

theorem snoreLiftProcessTick : f d.snoreLiftProcessTick = f d := by
  simp only [Dock.snoreLiftProcessTick]
  split
  · rfl
  · split
    · exact h.snoreLiftStopAndRelease d
    · split
      · exact h.snoreLiftEnqueuePulse d _
      · rfl

theorem snoringInterventStateClear : f d.snoringInterventStateClear = f d := by
  simp only [Dock.snoringInterventStateClear]
  rw [h.mapAnti, h.mapAnti]
  split
  · exact h.snoreLiftStopAndRelease d
  · exact h.mapAnti d _

theorem snoreRunModeSet (mode : UInt8) : f (d.snoreRunModeSet mode) = f d := by
  simp only [Dock.snoreRunModeSet]
  split
  · rfl
  · rw [h.mapAnti, h.mapAnti, h.snoringInterventStateClear, h.mapAnti]

theorem snoringInterventionInit : f d.snoringInterventionInit = f d := by
  rw [Dock.snoringInterventionInit, h.mapAnti, h.snoringInterventStateClear, h.mapAnti]

/-- The view may see the counting windows, which are brought up to date. -/
theorem runPrelude : f d.runPrelude = f d.snoreDebugWindowTick := by
  rw [Dock.runPrelude, h.snoreLiftProcessTick, h.mapAnti]
  exact h.mapAnti d.snoreDebugWindowTick AntiSnore.readAntiSnoreIntensity

theorem runDetect : f d.runDetect = f d.snoreDebugWindowTick := by
  rw [Dock.runDetect, h.mapAnti, h.mapAnti, h.runPrelude]

/-- The start of a segment ends with its log line, which the view may see. -/
theorem snoreLiftStart (pwm tmrSegSec : UInt8) : ∃ c p s e,
    d.snoreLiftStart pwm tmrSegSec = c.emit (.liftStart p s e) ∧ f c = f d := by
  refine ⟨_, _, _, _, rfl, ?_⟩
  rw [h.snoreLiftEnqueuePulse, h.mapAnti]
  split
  · exact h.snoreLiftStopAndRelease d
  · rfl

/-- The start, for a view that does not see the flash either. -/
theorem flashLoad (hflash : ∀ (d : Dock) m, f { d with flash := m } = f d) :
    f d.flashLoad = f d := by
  simp only [Dock.flashLoad, flashSnoreShadowUpdate]
  rw [hflash]
  split
  · exact h.mapAnti d _
  · rfl

/-! ### What the voice chip and the APP ask of it -/

theorem xUart3DateReceiveHandle (raw : List UInt8) :
    f (d.xUart3DateReceiveHandle raw) = f d := by
  simp only [Dock.xUart3DateReceiveHandle]
  split
  · rw [h.mapAnti, h.ci1302]
  · rfl

theorem voiceDispatch (cmd : UInt8) : f (d.voiceDispatch cmd) = f d := by
  simp only [Dock.voiceDispatch]
  split <;> exact h.mfp d _

theorem snoreInterventionCancelOnVoicePosition (cmd : UInt8) :
    f (d.snoreInterventionCancelOnVoicePosition cmd) = f d := by
  simp only [Dock.snoreInterventionCancelOnVoicePosition]
  split
  · split
    · rw [h.mapAnti, h.snoringInterventStateClear]
    · exact h.snoringInterventStateClear d
  · rfl

theorem bleAppKeyDispatch (p : List UInt8) (n : UInt8) : f (d.bleAppKeyDispatch p n) = f d := by
  simp only [Dock.bleAppKeyDispatch]
  split
  · exact h.mfp d _
  · split
    · exact h.mfp d _
    · rfl

theorem bleSnoreConfigure (ha : AnswerBlind f) (pwm tmr l : UInt8) :
    f (d.bleSnoreConfigure pwm tmr l) = f d := by
  simp only [Dock.bleSnoreConfigure]
  rw [ha.flashSaveSnoreCfgIfChanged]
  split
  · rw [h.snoringInterventStateClear, h.mapAnti, h.mapAnti]
  · exact h.mapAnti d _

end LiftBlind

/-! ### The counters -/

namespace CountBlind

variable {α : Type} {f : Dock → α} (h : CountBlind f) (d : Dock)
include h

theorem countTrig : f d.countTrig = f d := h.bleTestinfo d _ rfl

theorem countWake : f d.countWake = f d := h.bleTestinfo d _ rfl

theorem countResp : f d.countResp = f d := h.bleTestinfo d _ rfl

theorem bleTestinfoVoiceDetailInc (cmd : UInt8) : f (d.bleTestinfoVoiceDetailInc cmd) = f d := by
  simp only [Dock.bleTestinfoVoiceDetailInc]
  split
  · rfl
  · exact h.bleTestinfo d _ (List.length_set ..)

/-- Waking up ends with the LED, which the view may see. -/
theorem offlineVoiceWakeUp_eq :
    ∃ c : Dock, d.offlineVoiceWakeUp = c.setLed c.led.ledVoiceWakeup ∧ f c = f d := by
  refine ⟨_, rfl, ?_⟩
  split
  · rw [h.bleTestinfoVoiceDetailInc, h.countWake]
  · split
    · rw [h.bleTestinfoVoiceDetailInc, h.countWake]
    · exact h.countWake d

end CountBlind

/-- The view sees nothing of the lift, of its log lines and of the counters. -/
structure Blind {α : Type} (f : Dock → α) : Prop extends LiftBlind f, CountBlind f where
  emit : ∀ (d : Dock) o, o.isLog = true → f (d.emit o) = f d

namespace Blind

variable {α : Type} {f : Dock → α} (h : Blind f) (d : Dock)
include h

theorem runTriggered : f d.runTriggered = f d := by
  rw [Dock.runTriggered]
  split
  · obtain ⟨c, p, s, e, hstart, hc⟩ := h.snoreLiftStart (d.mapAnti AntiSnore.settle)
      d.anti.snoreIntervention.snoreInterventionPwm d.anti.snoreLiftTmrSegSeconds
    rw [h.mapAnti, h.countTrig, hstart, h.emit _ _ rfl, hc, h.mapAnti]
  · exact h.mapAnti d _

theorem snoringInterventionRun : f d.snoringInterventionRun = f d := by
  have hwindows : f d.snoreDebugWindowTick = f d := h.dbg d _
  rw [Dock.snoringInterventionRun]
  split
  · split
    · rw [h.runTriggered, h.runDetect, hwindows]
    · rw [h.runDetect, hwindows]
  · rw [h.runPrelude, hwindows]

end Blind

/-- The view sees nothing of the lift, the LEDs, the session, the charger, the flash, the answers to
the APP and the frames of the main box. -/
structure Narrow {α : Type} (f : Dock → α) : Prop extends LiftBlind f, AnswerBlind f where
  setLed : ∀ (d : Dock) m, f (d.setLed m) = f d
  voice : ∀ (d : Dock) v, f { d with voice := v } = f d
  voiceState : ∀ (d : Dock) s, f { d with voiceState := s } = f d
  charge : ∀ (d : Dock) c, f { d with charge := c } = f d
  uart1CmdHandle : ∀ (d : Dock) raw, f (d.uart1CmdHandle raw) = f d

namespace Narrow

variable {α : Type} {f : Dock → α} (h : Narrow f) (d : Dock)
include h

theorem dataPortApply (p : List UInt8) (n : UInt8) : f (d.dataPortApply p n) = f d := by
  have heffect : f (d.dataPortEffect p n) = f d := by
    unfold dataPortEffect
    split
    · exact h.voice d _
    split
    · exact h.bleSnoreConfigure d h.toAnswerBlind _ _ _
    split
    · exact h.snoreRunModeSet d _
    · rfl
  simp only [Dock.dataPortApply]
  split
  · rw [h.setLed, heffect]
  · exact heffect

theorem bleApply (value : List UInt8) : f (d.bleApply value) = f d := by
  rw [Dock.bleApply]
  split
  · split
    · rw [reportTriging, h.mapAnti, h.bleAppKeyDispatch]
    split
    · exact h.dataPortApply d _ _
    · rfl
  · rfl

theorem uartServerWriteReq (value : List UInt8) : f (d.uartServerWriteReq value) = f d := by
  rw [uartServerWriteReq_eq, h.deliver, h.bleApply]

theorem offlineVoiceWakeUp (hb : Blind f) : f d.offlineVoiceWakeUp = f d := by
  obtain ⟨c, hwake, hc⟩ := hb.offlineVoiceWakeUp_eq d
  rw [hwake, h.setLed, hc]

theorem offlineVoiceDataHandle (hb : Blind f) (cmd : UInt8) :
    f (d.offlineVoiceDataHandle cmd) = f d := by
  simp only [Dock.offlineVoiceDataHandle]
  split
  · rw [h.setLed, hb.countWake, hb.bleTestinfoVoiceDetailInc]
  · rw [h.voiceDispatch, h.snoreInterventionCancelOnVoicePosition, hb.countResp, h.setLed,
      hb.emit _ _ rfl, h.voice, hb.bleTestinfoVoiceDetailInc]

theorem offlineVoiceHandle (hb : Blind f) (cmd data : UInt8) :
    f (d.offlineVoiceHandle cmd data) = f d := by
  have hboth : ∀ v s, f { d with voice := v, voiceState := s } = f d := fun v s =>
    (h.voiceState { d with voice := v } s).trans (h.voice d v)
  simp only [Dock.offlineVoiceHandle]
  split
  · rw [h.voiceState]
    split
    · rw [h.setLed, h.voice]
    · rfl
  · split
    · split
      · rw [h.offlineVoiceWakeUp _ hb, hboth]
      · rfl
    all_goals
      split
      · rw [h.voiceState, h.offlineVoiceDataHandle d hb]
      · split
        · rw [h.voiceState, offlineVoiceWakeOff, h.setLed, h.voice]
        · rfl

theorem controlTimer1000ms (status : UInt8) : f (d.controlTimer1000ms status) = f d := by
  simp only [Dock.controlTimer1000ms]
  rw [h.charge, h.setLed]

theorem xUart1DateReceiveHandle (raw : List UInt8) : f (d.xUart1DateReceiveHandle raw) = f d := by
  simp only [Dock.xUart1DateReceiveHandle]
  split
  · rw [h.mfp, h.uart1CmdHandle]
  · rfl

end Narrow

/-! ### The LEDs -/

namespace LedBlind

variable {α : Type} {f : Dock → α} (h : LedBlind f) (d : Dock)
include h

theorem ledTaskFinish (i : Fin 4) : f (d.ledTaskFinish i) = f d := by
  simp only [Dock.ledTaskFinish]
  split
  · exact h.setLed d _
  · exact h.setLed d _
  · rw [ledBtPairingTimeoutCallback, h.emit _ _ rfl, h.ble, h.setLed]

theorem ledFlash10ms (i : Fin 4) : f (d.ledFlash10ms i).2 = f d := by
  simp only [Dock.ledFlash10ms]
  split
  · split
    · split
      · rw [h.ledTaskFinish, h.setLed]
      · exact h.setLed d _
    · exact h.setLed d _
  · exact h.setLed d _

theorem ledTimeout10ms (is100msTick : Bool) (i : Fin 4) :
    f (d.ledTimeout10ms is100msTick i) = f d := by
  simp only [Dock.ledTimeout10ms]
  split
  · split
    · rw [h.ledTaskFinish, h.setLed]
    · exact h.setLed d _
  · rfl

theorem ledTask10ms (is100msTick : Bool) (i : Fin 4) :
    f (Dock.ledTask10ms is100msTick d i) = f d := by
  have hflash := h.ledFlash10ms d i
  simp only [Dock.ledTask10ms]
  split
  · rfl
  · split
    · split
      · exact hflash
      · rw [h.ledTimeout10ms, hflash]
    · exact h.ledTimeout10ms d is100msTick i

theorem ledCtrl10msHandler : f d.ledCtrl10msHandler = f d := by
  simp only [Dock.ledCtrl10msHandler, List.foldl_cons, List.foldl_nil]
  rw [h.ledTask10ms, h.ledTask10ms, h.ledTask10ms, h.ledTask10ms, h.setLed]

end LedBlind

/-- The view sees no change of the parts most handlers write; of the outputs it sees the
notifications at most, of the counters the number of words counted. -/
structure Aside {α : Type} (f : Dock → α) : Prop
    extends LiftBlind f, CountBlind f, LedBlind f

namespace Aside

variable {α : Type} {f : Dock → α} (h : Aside f)
include h

theorem blind : Blind f where
  toLiftBlind := h.toLiftBlind
  toCountBlind := h.toCountBlind
  emit d o ho := by
    refine h.emit d o ?_
    cases o <;> first | rfl | cases ho

theorem offlineVoiceWakeUp (d : Dock) : f d.offlineVoiceWakeUp = f d := by
  obtain ⟨c, hwake, hc⟩ := h.offlineVoiceWakeUp_eq d
  rw [hwake, h.setLed, hc]

end Aside

end Dock
end ErgoDock
