import ErgoDock.LedTasks
import ErgoDock.Windows
import ErgoDock.Lib.Tally

/-! # The counters of the status reports

The firmware counts snores in two windows (`snore_dbg_*`, `snore_cnt_*`) and voice words and
interventions in `ble_testinfo`.  `tally` is the view of these counters.  Two functions only reach
it: the periodic function of the controller, which brings the windows up to date and counts an
intervention, and `offline_voice_Handle`, which counts a word it handles. -/

namespace ErgoDock

open Machine

/-- `ble_testinfo` after a word that was handled. -/
def BleTestinfo.heard (t : BleTestinfo) (data : UInt8) : BleTestinfo :=
  let i := (data - 0x21).toNat
  let n := t.voiceDetail.getD i 0
  { t with
    offlineVoiceWake :=
      if data = 0x21 ∨ data = 0x22 then satInc t.offlineVoiceWake else t.offlineVoiceWake
    offlineVoiceResp :=
      if data = 0x21 ∨ data = 0x22 then t.offlineVoiceResp else satInc t.offlineVoiceResp
    voiceDetail := if data < 0x21 ∨ data > 0x38 then t.voiceDetail
      else t.voiceDetail.set i (if n < 0xFF then n + 1 else n) }

namespace Dock

/-- The frame reports a word that `offline_voice_Handle` handles: the wake word that opens the
session, or any word while it is open. -/
def HandlesWord (d : Dock) (cmd data : UInt8) : Prop :=
  d.voice.keyEnable = true ∧
    (d.voiceState = .disabled ∧ IsWake d.voice cmd data ∨ d.voiceState ≠ .disabled ∧ cmd = 0x81)

instance (d : Dock) (cmd data : UInt8) : Decidable (d.HandlesWord cmd data) := by
  unfold HandlesWord; infer_instance

/-- The counters. -/
def tally (d : Dock) : SnoreDbg × BleTestinfo := (d.dbg, d.sys.bleTestinfo)

section functions
variable (d : Dock)

@[simp] theorem tally_setLed (m : LedModule) : (d.setLed m).tally = d.tally := rfl
@[simp] theorem tally_setKeys (k : KeyStatics) : (d.setKeys k).tally = d.tally := rfl

theorem narrow_tally : Narrow tally where
  mapAnti _ _ := rfl
  mfp _ _ := rfl
  ci1302 _ _ := rfl
  flash _ _ := rfl
  link _ _ := rfl
  setBletx _ _ := rfl
  notify _ _ _ := rfl
  flashErase _ := rfl
  flashProgram _ _ := rfl
  setLed _ _ := rfl
  voice _ _ := rfl
  voiceState _ _ := rfl
  charge _ _ := rfl
  uart1CmdHandle d raw := by
    simp only [Dock.uart1CmdHandle]
    split <;> rfl

theorem ledBlind_tally : LedBlind tally where
  setLed _ _ := rfl
  ble _ _ := rfl
  emit _ _ _ := rfl

/-! ### The controller -/

theorem tally_countTrig {c : Dock} (h : c.tally = d.tally) :
    c.countTrig.tally = d.countTrig.tally := by
  have hdbg : c.dbg = d.dbg := (Prod.mk.inj h).1
  have ht : c.sys.bleTestinfo = d.sys.bleTestinfo := (Prod.mk.inj h).2
  simp only [tally, countTrig, hdbg, ht]

/-- A trigger counts at most an intervention. -/
theorem tally_runTriggered :
    d.runTriggered.tally = d.tally ∨ d.runTriggered.tally = d.countTrig.tally := by
  unfold runTriggered
  dsimp only
  split
  · refine .inr ?_
    obtain ⟨c, p, s, e, hstart, hc⟩ := narrow_tally.snoreLiftStart (d.mapAnti AntiSnore.settle)
      d.anti.snoreIntervention.snoreInterventionPwm d.anti.snoreLiftTmrSegSeconds
    rw [narrow_tally.mapAnti] at hc ⊢
    exact d.tally_countTrig ((congrArg tally hstart).trans hc)
  · exact .inl rfl

/-- The periodic function brings the windows up to date and counts at most an intervention. -/
theorem tally_run : d.snoringInterventionRun.tally = d.snoreDebugWindowTick.tally ∨
    d.snoringInterventionRun.tally = d.snoreDebugWindowTick.countTrig.tally := by
  unfold snoringInterventionRun
  split
  · split
    · have hdetect := narrow_tally.runDetect d
      rcases d.runDetect.tally_runTriggered with h | h
      · exact .inl (h.trans hdetect)
      · exact .inr (h.trans (tally_countTrig _ hdetect))
    · exact .inl (narrow_tally.runDetect d)
  · exact .inl (narrow_tally.runPrelude d)

/-! ### Keys and switch -/

theorem tally_checkOfflineVoiceKeys (key1 key2 : UInt8) :
    (d.checkOfflineVoiceKeys key1 key2).tally = d.tally := by
  have hsync : ∀ (c : Dock) (force : Bool),
      (c.ci1302Uart2VoiceConfigSync force).tally = c.tally := by
    intro c force
    simp only [ci1302Uart2VoiceConfigSync]
    split <;> rfl
  unfold checkOfflineVoiceKeys
  dsimp only
  split
  · rfl
  · rw [hsync]
    unfold applySwitch
    dsimp only
    split
    · split <;> rfl
    · rfl

theorem tally_controlTimer10ms (key : UInt8) : (d.controlTimer10ms key).tally = d.tally := by
  have h4 : ∀ c : Dock, c.longPressKey4.tally = c.tally := by
    intro c
    simp only [longPressKey4]
    split <;> rfl
  simp only [controlTimer10ms, tally_setKeys]
  split
  · rfl
  split
  · split
    · exact h4 _
    · split <;> rfl
  split
  · split <;> rfl
  · rfl

/-! ### Voice words -/

theorem tally_offlineVoiceWakeUp {cmd data : UInt8} (h : IsWake d.voice cmd data) :
    d.offlineVoiceWakeUp.tally = (d.dbg, d.sys.bleTestinfo.heard data) := by
  unfold offlineVoiceWakeUp
  dsimp only
  rw [tally_setLed]
  obtain ⟨-, rfl, hw⟩ | ⟨-, rfl, hw⟩ := h
  · rw [if_pos hw]
    rfl
  · rw [if_neg (by rw [hw]; decide), if_pos hw]
    rfl

theorem tally_offlineVoiceDataHandle (cmd : UInt8) :
    (d.offlineVoiceDataHandle cmd).tally = (d.dbg, d.sys.bleTestinfo.heard cmd) := by
  unfold offlineVoiceDataHandle
  split
  · next hw =>
    rw [tally_setLed, BleTestinfo.heard, if_pos hw, if_pos hw]
    unfold bleTestinfoVoiceDetailInc
    split <;> rfl
  · next hw =>
    rw [narrow_tally.voiceDispatch, narrow_tally.snoreInterventionCancelOnVoicePosition,
      BleTestinfo.heard, if_neg hw, if_neg hw]
    unfold bleTestinfoVoiceDetailInc
    split <;> rfl

/-- A frame of the voice chip counts the word it reports if the word is handled, and counts
nothing else. -/
theorem tally_offlineVoiceHandle (cmd data : UInt8) :
    (d.offlineVoiceHandle cmd data).tally =
      if d.HandlesWord cmd data then (d.dbg, d.sys.bleTestinfo.heard data) else d.tally := by
  unfold offlineVoiceHandle
  by_cases hk : d.voice.keyEnable = false
  · have hno : ¬ d.HandlesWord cmd data := fun h => by simp [h.1] at hk
    rw [if_pos hk, if_neg hno]
    dsimp only
    split <;> rfl
  · have hk' : d.voice.keyEnable = true := by simpa using hk
    rw [if_neg hk]
    have hopen : d.voiceState ≠ .disabled →
        (if cmd = 0x81 then { d.offlineVoiceDataHandle data with voiceState := .active }
          else if cmd = 0x82 then { d.offlineVoiceWakeOff with voiceState := .disabled }
          else d).tally =
        if d.HandlesWord cmd data then (d.dbg, d.sys.bleTestinfo.heard data) else d.tally := by
      intro hs
      by_cases hc : cmd = 0x81
      · rw [if_pos hc, if_pos ⟨hk', .inr ⟨hs, hc⟩⟩]
        exact d.tally_offlineVoiceDataHandle data
      · have hno : ¬ d.HandlesWord cmd data := fun h =>
          h.2.elim (fun h => hs h.1) fun h => hc h.2
        rw [if_neg hc, if_neg hno]
        split <;> rfl
    cases hs : d.voiceState with
    | disabled =>
        dsimp only
        by_cases hw : IsWake d.voice cmd data
        · rw [if_pos hw, if_pos ⟨hk', .inl ⟨hs, hw⟩⟩]
          exact tally_offlineVoiceWakeUp _ hw
        · have hno : ¬ d.HandlesWord cmd data := fun h =>
            h.2.elim (fun h => hw h.2) fun h => h.1 hs
          rw [if_neg hw, if_neg hno]
    | wakeWordDetected => exact hopen (by simp [hs])
    | active => exact hopen (by simp [hs])

theorem dbg_offlineVoiceHandle (cmd data : UInt8) :
    (d.offlineVoiceHandle cmd data).dbg = d.dbg := by
  have h := congrArg Prod.fst (d.tally_offlineVoiceHandle cmd data)
  refine h.trans ?_
  split <;> rfl

end functions
end Dock

/-! ### The events -/

/-- Only the periodic function and the frames of the voice chip reach the counters. -/
theorem tally_step (d : Dock) {e : Event} (hr : e ≠ .snoreRun)
    (hv : ∀ cmd data, e ≠ .voiceFrame cmd data) : (step d e).tally = d.tally := by
  cases e with
  | switchSample key1 key2 => exact d.tally_checkOfflineVoiceKeys key1 key2
  | control key => exact d.tally_controlTimer10ms key
  | led => exact Dock.ledBlind_tally.ledCtrl10msHandler d
  | snoreRun => exact absurd rfl hr
  | flashRun => exact Dock.narrow_tally.flashSaveSnoreCfgIfChanged d
  | voiceFrame cmd data => exact absurd rfl (hv cmd data)
  | mfpFrame raw => exact Dock.narrow_tally.xUart1DateReceiveHandle d raw
  | statusFrame raw => exact Dock.narrow_tally.xUart3DateReceiveHandle d raw
  | bleWrite value => exact Dock.narrow_tally.uartServerWriteReq d value
  | connected conIdx =>
      simp only [step, Dock.gapConnected]
      split <;> rfl
  | disconnected =>
      simp only [step, Dock.gapDisconnected]
      split
      · split <;> rfl
      · rfl
  | _ => rfl

theorem tally_boot (b : Boot) : (boot b).tally = ({}, {}) := by
  have hsync : ∀ d : Dock, (d.ci1302Uart2VoiceConfigSync true).tally = d.tally := by
    intro d
    simp only [Dock.ci1302Uart2VoiceConfigSync]
    split <;> rfl
  rw [boot, Dock.xUartInit, hsync, Dock.tally_checkOfflineVoiceKeys,
    Dock.narrow_tally.snoringInterventionInit, Dock.narrow_tally.flashLoad _ fun _ _ => rfl]
  rfl

end ErgoDock
