import ErgoDock.Led
import ErgoDock.SnoreIntervention

/-! # Offline voice commands (`offline_voice.c`)

The voice chip reports words on UART2.  `offline_voice_Handle` keeps the session: a wake word
opens it, a session-end frame closes it, and in between every word is executed by
`offline_voice_dataHandle`, which maps it to a key frame for the main box. -/

namespace ErgoDock
namespace Dock

/-! ### Counters and session -/

/-- `ble_testinfo_voice_detail_inc`. -/
def bleTestinfoVoiceDetailInc (d : Dock) (cmd : UInt8) : Dock :=
  if cmd < 0x21 ∨ cmd > 0x38 then d
  else
    let t := d.sys.bleTestinfo
    let i := (cmd - 0x21).toNat
    let n := t.voiceDetail.getD i 0
    let t' := { t with voiceDetail := t.voiceDetail.set i (if n < 0xFF then n + 1 else n) }
    { d with sys := { d.sys with bleTestinfo := t' } }

/-- The increment of `offline_voice_wake`. -/
def countWake (d : Dock) : Dock :=
  let t := d.sys.bleTestinfo
  let t' := { t with offlineVoiceWake := satInc t.offlineVoiceWake }
  { d with sys := { d.sys with bleTestinfo := t' } }

/-- The increment of `offline_voice_resp`. -/
def countResp (d : Dock) : Dock :=
  let t := d.sys.bleTestinfo
  let t' := { t with offlineVoiceResp := satInc t.offlineVoiceResp }
  { d with sys := { d.sys with bleTestinfo := t' } }

/-- `offline_voice_wake_up`. -/
def offlineVoiceWakeUp (d : Dock) : Dock :=
  let d₁ := d.countWake
  let d₂ := if d.voice.wakeWord = helloErgo then d₁.bleTestinfoVoiceDetailInc 0x21
    else if d.voice.wakeWord = helloBed then d₁.bleTestinfoVoiceDetailInc 0x22 else d₁
  d₂.setLed d₂.led.ledVoiceWakeup

/-- `offline_voice_wake_off`. -/
def offlineVoiceWakeOff (d : Dock) : Dock :=
  let d₁ := { d with voice := { d.voice with enabled := false, lastControlCmd := 0 } }
  d₁.setLed d₁.led.ledVoiceCloseFlash

/-! ### Control words -/

/-- The case labels of `snore_intervention_cancel_on_voice_position`. -/
def voicePositionCmds : List UInt8 :=
  [0x25, 0x26, 0x27, 0x28, 0x29, 0x2A, 0x2B, 0x2C, 0x33, 0x34, 0x35, 0x36, 0x37, 0x38]

/-- The words of `snore_intervention_cancel_on_voice_position` that cancel the cycle timer. -/
def voiceFlatCmds : List UInt8 := [0x26, 0x33]

/-- `snore_intervention_cancel_on_voice_position`. -/
def snoreInterventionCancelOnVoicePosition (d : Dock) (cmd : UInt8) : Dock :=
  if cmd ∈ voicePositionCmds then
    let d₁ := d.snoringInterventStateClear
    if cmd ∈ voiceFlatCmds then d₁.mapAnti AntiSnore.snoringInterventFlatTimerClear else d₁
  else d

/-- The key and the repeat count the switch of `offline_voice_dataHandle` sends for a word;
`none` when it sends nothing. -/
def voiceKey (voice : OfflineVoice) (m1 cmd : UInt8) : Option (UInt32 × UInt8) :=
  let ab : Bool := voice.bedType = 1
  if cmd = 0x23 then some (keyMassageStopAll, 1)
  else if cmd = 0x24 then
    some (if ab then keyM1Out ||| keyM2Out ||| keyM3Out else keyM1Out ||| keyM2Out, 30)
  else if cmd = 0x25 then some (keyZerog, 3)
  else if cmd = 0x26 then some (keyAllFlat, 3)
  else if cmd = 0x27 then some (keyMemory5, 3)
  else if cmd = 0x28 then some (keyMemory3, 3)
  else if cmd = 0x29 then some (if ab then keyM1Out ||| keyM2Out else keyM1Out, 15)
  else if cmd = 0x2A then some (if ab then keyM1In ||| keyM2In else keyM1In, 15)
  else if cmd = 0x2B then some (if ab then keyM3Out else keyM2Out, 15)
  else if cmd = 0x2C then some (if ab then keyM3In else keyM2In, 15)
  else if cmd = 0x2D then if m1 = 0 then some (keyMassageAll, 3) else none
  else if cmd = 0x2E then some (keyMassageFeet ||| keyMassageHead, 3)
  else if cmd = 0x2F then some (keyMassageHeadMinus ||| keyMassageFeetMinus, 3)
  else if cmd = 0x30 then if m1 ≠ 0 then some (keyMassageStopAll, 3) else none
  else if cmd = 0x31 then if voice.ubbEnable then some (keyUbb, 3) else none
  else if cmd = 0x32 then if voice.ubbEnable then none else some (keyUbb, 3)
  else if cmd = 0x33 then some (keyAllFlat, 3)
  else if cmd = 0x34 then some (keyMemory4, 3)
  else if cmd = 0x35 then some (keyM4Out, 15)
  else if cmd = 0x36 then some (keyM4In, 15)
  else if cmd = 0x37 then some (keyM3Out, 15)
  else if cmd = 0x38 then some (keyM3In, 15)
  else none

/-- The switch of `offline_voice_dataHandle`: STOP and the flat preset empty the queue first. -/
def voiceDispatch (d : Dock) (cmd : UInt8) : Dock :=
  let q := if cmd = 0x23 ∨ cmd = 0x26 then d.mfp.mfpTxQueueClear else d.mfp
  match voiceKey d.voice d.sys.m1 cmd with
  | some (key, repeats) => { d with mfp := q.prepareMfpNormalKet .voice key repeats }
  | none => { d with mfp := q }

/-- `offline_voice_dataHandle`. -/
def offlineVoiceDataHandle (d : Dock) (cmd : UInt8) : Dock :=
  if cmd = 0x21 ∨ cmd = 0x22 then
    let d₁ := (d.bleTestinfoVoiceDetailInc cmd).countWake
    d₁.setLed d₁.led.ledVoiceWakeup
  else
    let d₁ := d.bleTestinfoVoiceDetailInc cmd
    let d₂ := { d₁ with voice := { d₁.voice with lastControlCmd := cmd } }.emit (.voiceCmd cmd)
    let d₃ := (d₂.setLed d₂.led.ledVoiceCommandConfirm).countResp
    (d₃.snoreInterventionCancelOnVoicePosition cmd).voiceDispatch cmd

/-! ### The session -/

/-- A report of the wake word configured on the switch. -/
def IsWake (voice : OfflineVoice) (cmd data : UInt8) : Prop :=
  cmd = 0x81 ∧ data = 0x21 ∧ voice.wakeWord = helloErgo ∨
    cmd = 0x81 ∧ data = 0x22 ∧ voice.wakeWord = helloBed

instance (voice : OfflineVoice) (cmd data : UInt8) : Decidable (IsWake voice cmd data) := by
  unfold IsWake; infer_instance

/-- A frame by which `offline_voice_Handle` executes a control word. -/
def ExecutesWord (d : Dock) (cmd data : UInt8) : Prop :=
  d.voice.keyEnable = true ∧ d.voiceState ≠ .disabled ∧ cmd = 0x81 ∧ data ≠ 0x21 ∧ data ≠ 0x22

instance (d : Dock) (cmd data : UInt8) : Decidable (d.ExecutesWord cmd data) := by
  unfold ExecutesWord; infer_instance

/-- `offline_voice_Handle`. -/
def offlineVoiceHandle (d : Dock) (cmd data : UInt8) : Dock :=
  if d.voice.keyEnable = false then
    let d₁ := if d.voice.enabled ∨ d.voiceState ≠ .disabled then
        { d with voice := { d.voice with enabled := false } }.setLed (d.led.ledCtrlSetOff 3)
      else d
    { d₁ with voiceState := .disabled }
  else
    match d.voiceState with
    | .disabled =>
        if IsWake d.voice cmd data then
          { d with
            voiceState := .wakeWordDetected
            voice := { d.voice with enabled := true } }.offlineVoiceWakeUp
        else d
    | .wakeWordDetected | .active =>
        if cmd = 0x81 then { d.offlineVoiceDataHandle data with voiceState := .active }
        else if cmd = 0x82 then { d.offlineVoiceWakeOff with voiceState := .disabled }
        else d

end Dock
end ErgoDock
