import ErgoDock.Crc
import ErgoDock.AntiSnore
import ErgoDock.Dock

/-! # Frames on the serial lines (`x_uart.c`)

What the receive handlers do with a complete frame, and the configuration frames sent to the
voice chip.  A handler is given the bytes received so far (`raw`, the first `rxindex` bytes of
its buffer); the rest of the buffer is zero, because every handled frame and every timeout
clears it. -/

namespace ErgoDock
namespace Dock

def uartRxBufSize : ℕ := 256

/-! ### UART1: the main box -/

/-- `uart1_get_last_mfp_raw`. -/
def uart1GetLastMfpRaw (d : Dock) (maxLen : ℕ) : List UInt8 := d.uart1LastMfpRaw.take maxLen

/-- `uart1_get_last_mfp_sync_len`. -/
def uart1GetLastMfpSyncLen (d : Dock) : UInt8 := d.uart1LastMfpRaw.headD 0

/-- `mfp_mainbox_supports_soft_start`. -/
def mfpMainboxSupportsSoftStart (d : Dock) : Bool :=
  d.uart1GetLastMfpSyncLen ∈ [0x30, 0x34, 0x2A, 0x40, 0x41]

/-- `uart1_cmdHandle`: keep a copy of the frame and decode its fixed offsets. -/
def uart1CmdHandle (d : Dock) (raw : List UInt8) : Dock :=
  let byte := fun i => raw.getD i 0
  let flen := min ((byte 0).toNat + 3) uartRxBufSize
  let ubb := byte 11 &&& 0x01
  let sys := { d.sys with ubb := ubb, m1 := byte 12, m2 := byte 13 }
  let sys' := if flen ≥ 18 then
      { sys with
        mfpKeys := ofLe32 (byte 2) (byte 3) (byte 4) (byte 5)
        massageTimer := ofLe32 (byte 14) (byte 15) (byte 16) (byte 17) }
    else sys
  { d with
    uart1LastMfpRaw := (List.range flen).map byte
    sys := sys'
    voice := { d.voice with ubbEnable := ubb != 0 } }

/-- `rxCalcCheckSum`. -/
def rxCalcCheckSum (raw : List UInt8) : UInt8 :=
  (List.range (2 + (raw.getD 0 0).toNat)).foldl (fun sum i => sum - raw.getD i 0) 0xFF

/-- The test of `x_uart1_dateReceiveHandle`: a complete frame with a matching checksum. -/
def Uart1Valid (raw : List UInt8) : Prop :=
  raw.length > 0 ∧ raw.length ≥ (raw.getD 0 0).toNat + 3 ∧
    raw.getD ((raw.getD 0 0).toNat + 2) 0 = rxCalcCheckSum raw

instance (raw : List UInt8) : Decidable (Uart1Valid raw) := by unfold Uart1Valid; infer_instance

/-- `x_uart1_dateReceiveHandle` on a received frame: decode it, then use the bus slot it opens
for one transmission. -/
def xUart1DateReceiveHandle (d : Dock) (raw : List UInt8) : Dock :=
  if Uart1Valid raw then
    let d₁ := d.uart1CmdHandle raw
    { d₁ with mfp := d₁.mfp.mfpTxTask }
  else d

/-! ### UART3: the voice chip's status -/

/-- The test of `x_uart3_dateReceiveHandle`. -/
def Uart3Valid (raw : List UInt8) : Prop :=
  raw.length > 0 ∧ raw.length ≥ (raw.getD 1 0).toNat + 4 ∧
    modbusCrcCompute (raw.take ((raw.getD 1 0).toNat + 2)) =
      (raw.getD ((raw.getD 1 0).toNat + 2) 0).toUInt16 <<< 8 |||
        (raw.getD ((raw.getD 1 0).toNat + 3) 0).toUInt16

instance (raw : List UInt8) : Decidable (Uart3Valid raw) := by unfold Uart3Valid; infer_instance

/-- `x_uart3_dateReceiveHandle` on a received frame. -/
def xUart3DateReceiveHandle (d : Dock) (raw : List UInt8) : Dock :=
  if Uart3Valid raw then
    let byte := fun i => (raw.getD i 0).toUInt16
    let ci1302 : Ci1302 :=
      ⟨byte 4 <<< 8 ||| byte 5, byte 6 <<< 8 ||| byte 7, raw.getD 8 0⟩
    let d₁ := { d with sys := { d.sys with ci1302 := ci1302 } }
    d₁.mapAnti fun a =>
      let sf := { a.sf with snorevolume := ci1302.snorevolume }
      if ci1302.snoreState = 1 ∧ a.snoreIntervention.enable then
        { a with sf := { sf with
          snorevolumeAcc := sf.snorevolumeAcc + ci1302.snorevolume.toUInt32
          snorevolumeCnt := sf.snorevolumeCnt + 1 } }
      else { a with sf := sf }
  else d

/-! ### UART2: the voice chip's configuration -/

def ci1302FrameVoiceOff : List UInt8 := [0xA5, 0xFA, 0x00, 0x81, 0x19, 0x00, 0x39, 0xFB]
def ci1302FrameHelloErgo : List UInt8 := [0xA5, 0xFA, 0x00, 0x81, 0x01, 0x00, 0x21, 0xFB]
def ci1302FrameHelloBed : List UInt8 := [0xA5, 0xFA, 0x00, 0x81, 0x02, 0x00, 0x22, 0xFB]

/-- The configuration frame for a switch state. -/
def ci1302Frame (en : Bool) (ww : UInt8) : List UInt8 :=
  if en then
    if ww = helloErgo then ci1302FrameHelloErgo
    else if ww = helloBed then ci1302FrameHelloBed else ci1302FrameVoiceOff
  else ci1302FrameVoiceOff

/-- `ci1302_uart2_voice_config_sync`. -/
def ci1302Uart2VoiceConfigSync (d : Dock) (force : Bool) : Dock :=
  let en := d.voice.keyEnable
  let ww := d.voice.wakeWord
  let sh := d.ci1302Shadow
  if !force && sh.haveShadow && (sh.shEn == en && (!en || sh.shWw == ww)) then d
  else { d with ci1302Shadow := ⟨true, en, ww⟩ }.emit (.uart2 (ci1302Frame en ww))

theorem background_ci1302Sync (d : Dock) (force : Bool) :
    Background d (d.ci1302Uart2VoiceConfigSync force) := by
  simp only [ci1302Uart2VoiceConfigSync]
  split
  · exact .refl d
  · exact ⟨rfl, rfl, rfl, rfl, rfl, rfl⟩

end Dock
end ErgoDock
