import ErgoDock.OfflineVoice
import ErgoDock.Flash

/-! # The APP protocol (`x_ble_com.c`, and the notification channel of `main.c`)

A frame is a length byte, a port byte and a data domain.  Port `0x01` carries key frames,
which are put on the bus queue and answered by a status frame; port `0x06` carries queries
(`B6`) and settings (`B7`) of the segments `0x10` to `0x13`.

A handler gets the domain as the source does: the buffer from its first byte on (`p`, with
whatever follows the domain) and the domain's length `n`. -/

namespace ErgoDock

def bleAppPortInner : UInt8 := 0x01
def bleDataPort : UInt8 := 0x06
def bleServicePort : UInt8 := 0x09
def bleRxMaxPayload : UInt8 := 160

theorem bleDataPort_ne : bleDataPort ≠ bleAppPortInner := by decide

/-- The byte at an offset of a buffer. -/
def byteAt (p : List UInt8) (i : ℕ) : UInt8 := p.getD i 0

/-- A 16-bit count reported in one byte. -/
def satByte (n : UInt16) : UInt8 := if n > 0xFF then 0xFF else n.toUInt8

/-- A `10 B7` frame that sets the type of the bed. -/
def SetsBed (p : List UInt8) (n : UInt8) : Prop :=
  n ≥ 3 ∧ byteAt p 0 = 0x10 ∧ byteAt p 1 = 0xB7 ∧ byteAt p 2 ≤ 1

instance (p : List UInt8) (n : UInt8) : Decidable (SetsBed p n) := by
  unfold SetsBed; infer_instance

/-- An accepted `11 B7` frame: level, speed and time of the anti-snore function. -/
def SetsSnore (p : List UInt8) (n : UInt8) : Prop :=
  n = 7 ∧ byteAt p 0 = 0x11 ∧ byteAt p 1 = 0xB7 ∧ byteAt p 4 ≤ 3

instance (p : List UInt8) (n : UInt8) : Decidable (SetsSnore p n) := by
  unfold SetsSnore; infer_instance

/-- A `13 B7` frame with a run mode. -/
def CarriesMode (p : List UInt8) (n : UInt8) : Prop :=
  n ≥ 3 ∧ byteAt p 0 = 0x13 ∧ byteAt p 1 = 0xB7 ∧ byteAt p 2 ≤ snoreRunModeTest

instance (p : List UInt8) (n : UInt8) : Decidable (CarriesMode p n) := by
  unfold CarriesMode; infer_instance

namespace Dock

/-! ### Sending -/

/-- `ls_bleup_server_send_notification`; the result is the source's return value. -/
def lsBleupServerSendNotification (d : Dock) (data : List UInt8) : UInt8 × Dock :=
  if d.link.connectId ≠ 0xFF ∧ data.length ≠ 0 ∧ d.link.uartServerNtfDone then
    let d₁ := { d with link := { d.link with uartServerNtfDone := false } }
    (1, d₁.emit (.notify d.link.connectId data))
  else (0, d)

/-- `ble_link_send`. -/
def bleLinkSend (d : Dock) (port : UInt8) (data : List UInt8) : Dock :=
  if data.length > bleRxMaxPayload.toNat then d
  else
    let frame := UInt8.ofNat data.length :: port :: data
    ((d.setBletx frame).lsBleupServerSendNotification frame).2

/-- `ble_offline_voice_state_byte`. -/
def bleOfflineVoiceStateByte (d : Dock) : UInt8 :=
  if !d.voice.keyEnable then 0
  else if d.voice.wakeWord = helloErgo then 1
  else if d.voice.wakeWord = helloBed then 2 else 0

/-- `ble_fill_app_key_data_domain`: segments `BA`, `B9`, `B8`, then `B7` and the last frame of
the main box. -/
def bleFillAppKeyDataDomain (d : Dock) : List UInt8 :=
  [0xBA, d.sys.ubb, d.sys.m1, d.sys.m2] ++ le32 d.sys.massageTimer ++
    [if d.mfpMainboxSupportsSoftStart then 1 else 0, 0] ++
    [0xB9, 0, 0, 0] ++ le32 d.sys.mfpKeys ++
    [0xB8, 2, 1, 1, 2, 2, 0, 0, 0, 0, 0, d.bleOfflineVoiceStateByte, d.anti.antiSnoreIntensity,
      d.sys.chargeState] ++
    0xB7 :: d.uart1GetLastMfpRaw 127

/-- `x_ble_com_txbuffFill`. -/
def xBleComTxbuffFill (d : Dock) : Dock :=
  let d₁ := d.mapAnti fun a => a.mapSi fun si =>
    { si with triging := if si.isIntervening then 1 else 0 }
  let domain := d₁.bleFillAppKeyDataDomain
  let frame := UInt8.ofNat domain.length :: bleAppPortInner :: domain
  ((d₁.setBletx frame).lsBleupServerSendNotification frame).2

/-! ### Segment 0x10: offline voice -/

/-- `ble_offline_voice_send_response`. -/
def bleOfflineVoiceSendResponse (d : Dock) : Dock :=
  d.bleLinkSend bleDataPort
    [0x10, 0xB4, d.bleOfflineVoiceStateByte, if d.voice.enabled then 1 else 0,
      d.voice.lastControlCmd]

/-- `ble_offline_voice_segment_handle`. -/
def bleOfflineVoiceSegmentHandle (d : Dock) (p : List UInt8) (n : UInt8) : Dock :=
  if n < 2 then d
  else if byteAt p 0 ≠ 0x10 then d
  else if byteAt p 1 = 0xB6 then d.bleOfflineVoiceSendResponse
  else if byteAt p 1 = 0xB7 ∧ n ≥ 3 then
    let bedType := byteAt p 2
    let d₁ := if bedType > 1 then d else { d with voice := { d.voice with bedType := bedType } }
    d₁.bleOfflineVoiceSendResponse
  else d

/-! ### Segment 0x11: anti-snore -/

/-- The remaining ticks of the cycle in `ble_snore_send_response`. -/
def remain10ms (a : AntiSnore) : UInt32 :=
  let first := a.snoreIntervention.firstLiftTick
  if first ≠ 0 ∧ a.timer - first < a.snoreFlatDelayTicks then
    a.snoreFlatDelayTicks - (a.timer - first)
  else 0

/-- `ble_snore_send_response`. -/
def bleSnoreSendResponse (d : Dock) : Dock :=
  let a := d.anti
  let si := a.snoreIntervention
  d.bleLinkSend bleDataPort
    ([0x11, 0xB4, si.snoreInterventionPwm, si.snoreInterventionTmr,
      if a.antiSnoreIntensity > 3 then 3 else a.antiSnoreIntensity,
      if si.isIntervening || si.triggeredFlag then 1 else 0] ++ le32 (remain10ms a) ++
      [satByte a.sf.snoreNub, satByte d.dbg.cnt1min, satByte d.dbg.cnt5min, a.snoreRunModeGet])

/-- The effect of an accepted `11 B7` frame on the controller and the flash record. -/
def bleSnoreConfigure (d : Dock) (pwm tmr intensity : UInt8) : Dock :=
  let d₁ := d.mapAnti fun a =>
    { a with antiSnoreIntensity := intensity }.mapSi fun si =>
      { si with
        snoreInterventionPwm := pwm
        snoreInterventionTmr := tmr
        enable := intensity != 0 }
  let d₂ := if intensity = 0 then
      (d₁.mapAnti fun a => a.mapSi fun si =>
        { si with triggeredFlag := false }).snoringInterventStateClear
    else d₁
  d₂.flashSaveSnoreCfgIfChanged

/-- `ble_snore_segment_handle`. -/
def bleSnoreSegmentHandle (d : Dock) (p : List UInt8) (n : UInt8) : Dock :=
  if n < 2 then d
  else if byteAt p 0 ≠ 0x11 then d
  else if byteAt p 1 = 0xB6 then d.bleSnoreSendResponse
  else if byteAt p 1 = 0xB7 ∧ n = 7 then
    let intensity := byteAt p 4
    if intensity > 3 then d
    else
      let d₁ := d.bleSnoreConfigure (byteAt p 2) (byteAt p 3) intensity
      (d₁.setLed (d₁.led.ledSnoreLevelSet d₁.anti.antiSnoreIntensity)).bleSnoreSendResponse
  else d

/-! ### Segment 0x12: test counters -/

/-- `ble_testinfo_send_response`. -/
def bleTestinfoSendResponse (d : Dock) : Dock :=
  let t := d.sys.bleTestinfo
  d.bleLinkSend bleDataPort
    ([0x12, 0xB4, t.offlineVoiceWake.toUInt8, (t.offlineVoiceWake >>> 8).toUInt8,
      t.offlineVoiceResp.toUInt8, (t.offlineVoiceResp >>> 8).toUInt8,
      satByte t.snoreInterventionTrig, satByte d.anti.sf.snoreNub, 0xB3] ++ t.voiceDetail)

/-- `ble_testinfo_segment_handle`; a setting only echoes the counters. -/
def bleTestinfoSegmentHandle (d : Dock) (p : List UInt8) (n : UInt8) : Dock :=
  if n < 2 then d
  else if byteAt p 0 ≠ 0x12 then d
  else if byteAt p 1 = 0xB6 then d.bleTestinfoSendResponse
  else if byteAt p 1 = 0xB7 then d.bleTestinfoSendResponse
  else d

/-! ### Segment 0x13: run mode -/

/-- `ble_snore_dbgmode_send_response`. -/
def bleSnoreDbgmodeSendResponse (d : Dock) : Dock :=
  d.bleLinkSend bleDataPort [0x13, 0xB4, d.anti.snoreRunModeGet]

/-- `ble_snore_dbgmode_segment_handle`. -/
def bleSnoreDbgmodeSegmentHandle (d : Dock) (p : List UInt8) (n : UInt8) : Dock :=
  if n < 2 then d
  else if byteAt p 0 ≠ 0x13 then d
  else if byteAt p 1 = 0xB6 then d.bleSnoreDbgmodeSendResponse
  else if byteAt p 1 = 0xB7 ∧ n ≥ 3 then
    let mode := byteAt p 2
    if mode > snoreRunModeTest then d.bleSnoreDbgmodeSendResponse
    else (d.snoreRunModeSet mode).bleSnoreDbgmodeSendResponse
  else d

/-! ### Ports -/

/-- `ble_data_port_dispatch`. -/
def bleDataPortDispatch (d : Dock) (p : List UInt8) (n : UInt8) : Dock :=
  if n < 2 then d
  else if byteAt p 0 = 0x10 then d.bleOfflineVoiceSegmentHandle p n
  else if byteAt p 0 = 0x11 then d.bleSnoreSegmentHandle p n
  else if byteAt p 0 = 0x12 then d.bleTestinfoSegmentHandle p n
  else if byteAt p 0 = 0x13 then d.bleSnoreDbgmodeSegmentHandle p n
  else d

/-- `ble_app_key_dispatch`. -/
def bleAppKeyDispatch (d : Dock) (p : List UInt8) (n : UInt8) : Dock :=
  let key := ofLe32 (byteAt p 0) (byteAt p 1) (byteAt p 2) (byteAt p 3)
  if n = 5 then { d with mfp := d.mfp.prepareMfpNormalKet .app key 3 }
  else if n = 7 then
    { d with mfp := d.mfp.prepareMfpSoftStart .app key (byteAt p 5) (byteAt p 6) 3 }
  else d

/-- `ble_app_port_inner_dispatch`. -/
def bleAppPortInnerDispatch (d : Dock) (p : List UInt8) (n : UInt8) : Dock :=
  (d.bleAppKeyDispatch p n).xBleComTxbuffFill

/-- The length tests of `x_ble_com_handle`. -/
def BleComplete (pbuff : List UInt8) : Prop :=
  byteAt pbuff 0 ≤ bleRxMaxPayload ∧ 2 + (byteAt pbuff 0).toNat ≤ pbuff.length

instance (pbuff : List UInt8) : Decidable (BleComplete pbuff) := by
  unfold BleComplete; infer_instance

/-- `x_ble_com_handle`; the service port `0x09` is reserved. -/
def xBleComHandle (d : Dock) (pbuff : List UInt8) : Dock :=
  let dataLen := byteAt pbuff 0
  let port := byteAt pbuff 1
  if BleComplete pbuff then
    if port = bleAppPortInner then d.bleAppPortInnerDispatch (pbuff.drop 2) dataLen
    else if port = bleDataPort then d.bleDataPortDispatch (pbuff.drop 2) dataLen
    else d
  else d

/-- A write the firmware looks at: it fits the buffer and is complete. -/
def Accepted (value : List UInt8) : Prop :=
  (value.length ≤ 50 ∧ value.length ≥ 2) ∧ BleComplete value

instance (value : List UInt8) : Decidable (Accepted value) := by unfold Accepted; infer_instance

/-- The `SERVER_WRITE_REQ` case of `gatt_manager_callback` for the UART service. -/
def uartServerWriteReq (d : Dock) (value : List UInt8) : Dock :=
  if value.length ≤ 50 ∧ value.length ≥ 2 then d.xBleComHandle value else d

end Dock
end ErgoDock
