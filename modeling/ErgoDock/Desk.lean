import ErgoDock.Views

/-! # The switch, the keys and the voice session

The part of the firmware that decides what an event means, besides the anti-snore record: the
statics of the switch and of the keys, the voice session, and what was last heard of the main
box.  It is a machine of its own (`Desk.step`): nothing it does depends on the queue, on the
anti-snore record or on the answers to the APP, and `step_desk` says that the firmware simulates
it. -/

namespace ErgoDock

open Machine

structure Desk where
  keys : KeyStatics
  switch : SwitchStatics
  voice : OfflineVoice
  voiceState : VoiceState
  m1 : UInt8
  uart1LastMfpRaw : List UInt8

/-! ### The machine -/

/-- `control_timer10ms` on the statics of the keys. -/
def KeyStatics.next (k : KeyStatics) (key : UInt8) : KeyStatics :=
  let rep := satInc k.keyRepeat
  let k₁ :=
    if k.lastKey = 0 ∧ key ≠ 0 then k
    else if k.lastKey = key ∧ key ≠ 0 then
      if rep = 200 ∧ key = appKeyNum4 ∨ rep = 500 ∧ key = appKeyNum3 then
        { k with keyRepeat := rep, keysIgnore := true }
      else { k with keyRepeat := rep }
    else if k.lastKey ≠ 0 ∧ key = 0 then k
    else { k with keyRepeat := 0, keysIgnore := false }
  { k₁ with lastKey := key }

namespace Desk

/-- A new stable value of the switch. -/
def switchVoice (voice : OfflineVoice) (raw key1 key2 : UInt8) : OfflineVoice :=
  if raw = switchOff then
    { voice with
      keyEnable := false
      wakeWord := 0
      enabled := if voice.keyEnable then false else voice.enabled }
  else
    { voice with
      keyEnable := true
      wakeWord := if key1 = 0 then helloBed else if key2 = 0 then helloErgo else voice.wakeWord }

/-- `check_offline_voice_keys`. -/
def sample (s : Desk) (key1 key2 : UInt8) : Desk :=
  let raw := Dock.switchRaw key1 key2
  let sw := Dock.debounce s.switch raw
  if sw.rawCnt < 3 ∨ raw = sw.stable then { s with switch := sw }
  else
    { s with switch := { sw with stable := raw }, voice := switchVoice s.voice raw key1 key2 }

/-- `offline_voice_Handle`. -/
def hear (s : Desk) (cmd data : UInt8) : Desk :=
  if s.voice.keyEnable = false then
    { s with
      voice := if s.voice.enabled ∨ s.voiceState ≠ .disabled then
          { s.voice with enabled := false } else s.voice
      voiceState := .disabled }
  else
    match s.voiceState with
    | .disabled =>
        if Dock.IsWake s.voice cmd data then
          { s with voiceState := .wakeWordDetected, voice := { s.voice with enabled := true } }
        else s
    | .wakeWordDetected | .active =>
        if cmd = 0x81 then
          { s with
            voice := if data = 0x21 ∨ data = 0x22 then s.voice
              else { s.voice with lastControlCmd := data }
            voiceState := .active }
        else if cmd = 0x82 then
          { s with
            voice := { s.voice with enabled := false, lastControlCmd := 0 }
            voiceState := .disabled }
        else s

/-- `uart1_cmdHandle`. -/
def sync (s : Desk) (raw : List UInt8) : Desk :=
  { s with
    m1 := raw.getD 12 0
    voice := { s.voice with ubbEnable := raw.getD 11 0 &&& 0x01 != 0 }
    uart1LastMfpRaw :=
      (List.range (min ((raw.getD 0 0).toNat + 3) Dock.uartRxBufSize)).map fun i => raw.getD i 0 }

/-- The machine. -/
def step (s : Desk) : Event → Desk
  | .control key => { s with keys := s.keys.next key }
  | .switchSample key1 key2 => s.sample key1 key2
  | .voiceFrame cmd data => s.hear cmd data
  | .mfpFrame raw => if Dock.Uart1Valid raw then s.sync raw else s
  | .bleWrite value =>
      if Dock.Accepted value ∧ byteAt value 1 ≠ bleAppPortInner ∧ byteAt value 1 = bleDataPort ∧
          SetsBed (value.drop 2) (byteAt value 0) then
        { s with voice := { s.voice with bedType := byteAt (value.drop 2) 2 } }
      else s
  | _ => s

end Desk

/-! ### The firmware simulates it -/

namespace Dock

def desk (d : Dock) : Desk :=
  ⟨d.keys, d.switch, d.voice, d.voiceState, d.sys.m1, d.uart1LastMfpRaw⟩

section functions
variable (d : Dock)

@[simp] theorem desk_setLed (m : LedModule) : (d.setLed m).desk = d.desk := rfl
@[simp] theorem desk_mapAnti (f : AntiSnore → AntiSnore) : (d.mapAnti f).desk = d.desk := rfl
@[simp] theorem desk_emit (o : Output) : (d.emit o).desk = d.desk := rfl

theorem aside_desk : Aside desk where
  mapAnti _ _ := rfl
  mfp _ _ := rfl
  ci1302 _ _ := rfl
  dbg _ _ := rfl
  bleTestinfo _ _ _ := rfl
  setLed _ _ := rfl
  ble _ _ := rfl
  emit _ _ _ := rfl

theorem answerBlind_desk : AnswerBlind desk where
  flash _ _ := rfl
  link _ _ := rfl
  setBletx _ _ := rfl
  notify _ _ _ := rfl
  flashErase _ := rfl
  flashProgram _ _ := rfl

theorem desk_ci1302Sync (force : Bool) : (d.ci1302Uart2VoiceConfigSync force).desk = d.desk := by
  simp only [ci1302Uart2VoiceConfigSync]
  split <;> rfl

/-! ### The APP -/

theorem desk_dataPortApply (p : List UInt8) (n : UInt8) :
    (d.dataPortApply p n).desk =
      if SetsBed p n then { d.desk with voice := { d.voice with bedType := byteAt p 2 } }
      else d.desk := by
  have heffect : (d.dataPortApply p n).desk = (d.dataPortEffect p n).desk := by
    simp only [dataPortApply]
    split <;> rfl
  rw [heffect, dataPortEffect]
  split
  · rfl
  · split
    · exact aside_desk.bleSnoreConfigure d answerBlind_desk _ _ _
    · split
      · exact aside_desk.snoreRunModeSet d _
      · rfl

theorem desk_uartServerWriteReq (value : List UInt8) :
    (d.uartServerWriteReq value).desk = d.desk.step (.bleWrite value) := by
  rw [uartServerWriteReq_eq, answerBlind_desk.deliver, bleApply, Desk.step]
  by_cases ha : Accepted value
  · rw [if_pos ha]
    by_cases hp : byteAt value 1 = bleAppPortInner
    · rw [if_pos hp, if_neg fun hc => hc.2.1 hp, reportTriging, desk_mapAnti,
        aside_desk.bleAppKeyDispatch]
    · rw [if_neg hp]
      by_cases hq : byteAt value 1 = bleDataPort
      · rw [if_pos hq, desk_dataPortApply]
        by_cases hb : SetsBed (value.drop 2) (byteAt value 0)
        · rw [if_pos hb, if_pos (And.intro ha (And.intro hp (And.intro hq hb)))]
          rfl
        · rw [if_neg hb, if_neg fun hc => hb hc.2.2.2]
      · rw [if_neg hq, if_neg fun hc => hq hc.2.2.1]
  · rw [if_neg ha, if_neg fun hc => ha hc.1]

/-! ### The lines, the switch and the keys -/

theorem desk_xUart1DateReceiveHandle (raw : List UInt8) :
    (d.xUart1DateReceiveHandle raw).desk = d.desk.step (.mfpFrame raw) := by
  simp only [xUart1DateReceiveHandle, Desk.step]
  split
  · simp only [uart1CmdHandle, Desk.sync, desk]
    split <;> rfl
  · rfl

theorem desk_applySwitch (raw key1 key2 : UInt8) :
    (d.applySwitch raw key1 key2).desk =
      { d.desk with voice := Desk.switchVoice d.voice raw key1 key2 } := by
  simp only [applySwitch, Desk.switchVoice]
  split
  · split <;> rfl
  · rfl

theorem desk_checkOfflineVoiceKeys (key1 key2 : UInt8) :
    (d.checkOfflineVoiceKeys key1 key2).desk = d.desk.sample key1 key2 := by
  have hsw : d.desk.switch = d.switch := rfl
  simp only [checkOfflineVoiceKeys, Desk.sample, hsw]
  split
  · rfl
  · rw [desk_ci1302Sync, desk_applySwitch]
    rfl

theorem desk_controlTimer10ms (key : UInt8) :
    (d.controlTimer10ms key).desk = { d.desk with keys := d.keys.next key } := by
  have hset : ∀ (c : Dock) k, (c.setKeys k).desk = { c.desk with keys := k } := fun _ _ => rfl
  have h4 : ∀ c : Dock, c.longPressKey4.desk = c.desk ∧ c.longPressKey4.keys = c.keys := by
    intro c
    simp only [longPressKey4]
    split <;> exact ⟨rfl, rfl⟩
  rw [controlTimer10ms, KeyStatics.next]
  dsimp only
  rw [hset]
  by_cases hpress : d.keys.lastKey = 0 ∧ key ≠ 0
  · rw [if_pos hpress, if_pos hpress]
  rw [if_neg hpress, if_neg hpress]
  by_cases hhold : d.keys.lastKey = key ∧ key ≠ 0
  · rw [if_pos hhold, if_pos hhold]
    by_cases h200 : satInc d.keys.keyRepeat = 200 ∧ key = appKeyNum4
    · rw [if_pos h200, if_pos (Or.inl h200), (h4 _).1, (h4 _).2]
      rfl
    · by_cases h500 : satInc d.keys.keyRepeat = 500 ∧ key = appKeyNum3
      · rw [if_neg h200, if_pos h500, if_pos (Or.inr h500)]
        rfl
      · rw [if_neg h200, if_neg h500, if_neg (not_or.mpr ⟨h200, h500⟩)]
        rfl
  rw [if_neg hhold, if_neg hhold]
  by_cases hrel : d.keys.lastKey ≠ 0 ∧ key = 0
  · rw [if_pos hrel, if_pos hrel]
    split <;> rfl
  · rw [if_neg hrel, if_neg hrel]
    rfl

/-! ### The voice chip -/

theorem desk_offlineVoiceDataHandle (cmd : UInt8) :
    (d.offlineVoiceDataHandle cmd).desk =
      { d.desk with
        voice := if cmd = 0x21 ∨ cmd = 0x22 then d.voice
          else { d.voice with lastControlCmd := cmd } } := by
  have hword : ∀ c : Dock, ({ c with voice := { c.voice with lastControlCmd := cmd } }).desk =
      { c.desk with voice := { c.desk.voice with lastControlCmd := cmd } } := fun _ => rfl
  simp only [offlineVoiceDataHandle]
  by_cases hw : cmd = 0x21 ∨ cmd = 0x22
  · rw [if_pos hw, if_pos hw, desk_setLed, aside_desk.countWake,
      aside_desk.bleTestinfoVoiceDetailInc]
    rfl
  · rw [if_neg hw, if_neg hw, aside_desk.voiceDispatch,
      aside_desk.snoreInterventionCancelOnVoicePosition, aside_desk.countResp,
      desk_setLed, desk_emit, hword, aside_desk.bleTestinfoVoiceDetailInc]
    rfl

theorem desk_offlineVoiceHandle (cmd data : UInt8) :
    (d.offlineVoiceHandle cmd data).desk = d.desk.hear cmd data := by
  have hkey : d.desk.voice = d.voice ∧ d.desk.voiceState = d.voiceState := ⟨rfl, rfl⟩
  have hopen :
      (if cmd = 0x81 then { d.offlineVoiceDataHandle data with voiceState := .active }
        else if cmd = 0x82 then { d.offlineVoiceWakeOff with voiceState := .disabled }
        else d).desk =
      if cmd = 0x81 then
        { d.desk with
          voice := if data = 0x21 ∨ data = 0x22 then d.voice
            else { d.voice with lastControlCmd := data }
          voiceState := .active }
      else if cmd = 0x82 then
        { d.desk with
          voice := { d.voice with enabled := false, lastControlCmd := 0 }
          voiceState := .disabled }
      else d.desk := by
    split
    · have hstate : ∀ c : Dock, { c with voiceState := .active }.desk =
          { c.desk with voiceState := .active } := fun _ => rfl
      rw [hstate, desk_offlineVoiceDataHandle]
    · split <;> rfl
  simp only [offlineVoiceHandle, Desk.hear, hkey.1, hkey.2]
  by_cases hk : d.voice.keyEnable = false
  · rw [if_pos hk, if_pos hk]
    split <;> rfl
  rw [if_neg hk, if_neg hk]
  cases d.voiceState with
  | disabled =>
      dsimp only
      split
      · rw [Dock.aside_desk.offlineVoiceWakeUp]
        rfl
      · rfl
  | wakeWordDetected => exact hopen
  | active => exact hopen

end functions
end Dock

theorem step_desk (d : Dock) (e : Event) : (step d e).desk = d.desk.step e := by
  cases e with
  | switchSample key1 key2 => exact d.desk_checkOfflineVoiceKeys key1 key2
  | control key => exact d.desk_controlTimer10ms key
  | led => exact Dock.aside_desk.ledCtrl10msHandler d
  | snoreRun => exact Dock.aside_desk.blind.snoringInterventionRun d
  | flashRun => exact Dock.answerBlind_desk.flashSaveSnoreCfgIfChanged d
  | voiceFrame cmd data => exact d.desk_offlineVoiceHandle cmd data
  | mfpFrame raw => exact d.desk_xUart1DateReceiveHandle raw
  | statusFrame raw => exact Dock.aside_desk.xUart3DateReceiveHandle d raw
  | bleWrite value => exact d.desk_uartServerWriteReq value
  | connected conIdx =>
      simp only [step, Dock.gapConnected]
      split <;> rfl
  | disconnected =>
      simp only [step, Dock.gapDisconnected]
      split
      · split <;> rfl
      · rfl
  | _ => rfl

theorem desk_boot (b : Boot) : (boot b).desk = ({} : Dock).desk.sample b.key1 b.key2 := by
  rw [boot, Dock.xUartInit, Dock.desk_ci1302Sync, Dock.desk_checkOfflineVoiceKeys,
    Dock.aside_desk.snoringInterventionInit, Dock.aside_desk.flashLoad _ fun _ _ => rfl]
  rfl

end ErgoDock
