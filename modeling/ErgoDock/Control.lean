import ErgoDock.BleAnswers

/-! # Keys, switch and charging (`x_control.c`, `io_exti_callback`, callbacks of `main.c`)

The functions the 10 ms and 1 s timers call for the touch keys, the voice switch and the
charger, the snore interrupt, and the connection callbacks. -/

namespace ErgoDock

def appKeyNum3 : UInt8 := 0x04
def appKeyNum4 : UInt8 := 0x08

/-- The stable raw value of the switch in the off position: both contacts high. -/
def switchOff : UInt8 := 0x03

namespace Dock

/-! ### The voice switch -/

/-- The business part of `check_offline_voice_keys`, for a new stable value. -/
def applySwitch (d : Dock) (raw key1 key2 : UInt8) : Dock :=
  if raw = switchOff then
    let voice := { d.voice with keyEnable := false, wakeWord := 0 }
    if d.voice.keyEnable then
      { d with voice := { voice with enabled := false } }.setLed (d.led.ledCtrlSetOff 3)
    else { d with voice := voice }
  else
    let ww := if key1 = 0 then helloBed else if key2 = 0 then helloErgo else d.voice.wakeWord
    { d with voice := { d.voice with keyEnable := true, wakeWord := ww } }

/-- The debouncing part of `check_offline_voice_keys`. -/
def debounce (sw : SwitchStatics) (raw : UInt8) : SwitchStatics :=
  if raw = sw.rawLast then
    { sw with rawCnt := if sw.rawCnt < 3 then sw.rawCnt + 1 else sw.rawCnt }
  else { sw with rawLast := raw, rawCnt := 1 }

/-- The two contacts in one value. -/
def switchRaw (key1 key2 : UInt8) : UInt8 := ((key1 &&& 1) <<< 1) ||| (key2 &&& 1)

/-- `check_offline_voice_keys`, with the samples of the two contacts. -/
def checkOfflineVoiceKeys (d : Dock) (key1 key2 : UInt8) : Dock :=
  let raw := switchRaw key1 key2
  let sw := debounce d.switch raw
  if sw.rawCnt < 3 ∨ raw = sw.stable then { d with switch := sw }
  else
    let d₁ := { d with switch := { sw with stable := raw } }.applySwitch raw key1 key2
    d₁.ci1302Uart2VoiceConfigSync false

/-- `x_uart_init`: sample the switch once and configure the voice chip. -/
def xUartInit (d : Dock) (key1 key2 : UInt8) : Dock :=
  (d.checkOfflineVoiceKeys key1 key2).ci1302Uart2VoiceConfigSync true

/-! ### The touch keys -/

/-- The long press of key 4: open or close the pairing window. -/
def longPressKey4 (d : Dock) : Dock :=
  if d.sys.ble.blePairFlag = 0 then
    let ble := { d.sys.ble with blePairFlag := 1, blePairTime := 3000 }
    let d₁ := { d with sys := { d.sys with ble := ble } }.emit .startAdv
    d₁.setLed (d₁.led.ledBtPairing false)
  else
    let ble := { d.sys.ble with blePairFlag := 0, blePairTime := 0 }
    let d₁ := { d with sys := { d.sys with ble := ble } }.emit .stopAdv
    d₁.setLed (d₁.led.ledBtPairingStop d₁.voice.enabled)

/-- The long press of key 3: switch the anti-snore function off. -/
def longPressKey3 (d : Dock) : Dock :=
  (d.setLed d.led.ledSnoreDisabledFlash).mapAnti fun a => { a with antiSnoreIntensity := 0 }

/-- The release of key 3: step the level through 1, 2, 3. -/
def releaseKey3 (d : Dock) : Dock :=
  let d₁ := { d with charge := { d.charge with chargeAbnormalFlag := false } }
  let d₂ := d₁.mapAnti fun a =>
    { a with
      antiSnoreIntensity := if a.antiSnoreIntensity < 3 then a.antiSnoreIntensity + 1 else 1 }
  d₂.setLed (d₂.led.ledSnoreLevelSet d₂.anti.antiSnoreIntensity)

def setKeys (d : Dock) (k : KeyStatics) : Dock := { d with keys := k }

/-- `control_timer10ms`, with `key` the value of `app_touch_key_get`. -/
def controlTimer10ms (d : Dock) (key : UInt8) : Dock :=
  let k := d.keys
  let d₁ :=
    if k.lastKey = 0 ∧ key ≠ 0 then d
    else if k.lastKey = key ∧ key ≠ 0 then
      let rep := satInc k.keyRepeat
      let d := d.setKeys { k with keyRepeat := rep }
      if rep = 200 ∧ key = appKeyNum4 then
        (d.setKeys { d.keys with keysIgnore := true }).longPressKey4
      else if rep = 500 ∧ key = appKeyNum3 then
        (d.setKeys { d.keys with keysIgnore := true }).longPressKey3
      else d
    else if k.lastKey ≠ 0 ∧ key = 0 then
      if k.lastKey = appKeyNum3 ∧ k.keysIgnore = false then d.releaseKey3 else d
    else d.setKeys { k with keyRepeat := 0, keysIgnore := false }
  d₁.setKeys { d₁.keys with lastKey := key }

/-! ### Charging -/

/-- `control_timer1000ms`, with `status` the value of `on_WirelessCharege_status_get`.  (The
table `led_task` of the old LED code is never filled, so its loop does nothing.) -/
def controlTimer1000ms (d : Dock) (status : UInt8) : Dock :=
  let c := d.charge
  let redOff := fun (m : LedModule) => m.ledHwSetPin (some .redAll) false
  let r : LedModule × Bool :=
    if status = 0 ∧ c.chargeAbnormalFlag = false then
      let m := if c.lastChargeStatus = 1 then d.led.ledChargeStop else d.led
      (m.ledChargeError, true)
    else if status = 1 then
      if c.lastChargeStatus ≠ 1 then
        let m := if c.lastChargeStatus = 0 then (redOff d.led).ledCtrlSetOff 0 else d.led
        (m.ledChargeNormal, false)
      else (d.led, false)
    else if status = 0xFF then
      let m := if c.lastChargeStatus = 1 then d.led.ledChargeStop else d.led
      (if c.chargeAbnormalFlag then redOff m else m, false)
    else (d.led, c.chargeAbnormalFlag)
  { d.setLed r.1 with charge := ⟨r.2, status⟩ }

/-! ### Interrupt and connection -/

/-- `io_exti_callback` for the snore pin. -/
def ioExtiCallback (d : Dock) : Dock :=
  d.mapAnti fun a => { a with sf := { a.sf with snoreNub := a.sf.snoreNub + 1 } }

def setConnect (d : Dock) (c : UInt8) : Dock :=
  { d with sys := { d.sys with ble := { d.sys.ble with bleConnect := c } } }

/-- `ble_pair_flag && ble_pair_time > 0`. -/
def PairingOpen (d : Dock) : Prop := d.sys.ble.blePairFlag ≠ 0 ∧ d.sys.ble.blePairTime > 0

instance (d : Dock) : Decidable d.PairingOpen := by unfold PairingOpen; infer_instance

/-- The `CONNECTED` case of `gap_manager_callback`. -/
def gapConnected (d : Dock) (conIdx : UInt8) : Dock :=
  let d₁ := { d with link := { d.link with connectId := conIdx } }.setConnect 1
  if d₁.PairingOpen then d₁.setLed (d₁.led.ledBtPairing true) else d₁

/-- The `DISCONNECTED` case of `gap_manager_callback`. -/
def gapDisconnected (d : Dock) : Dock :=
  let link := { d.link with connectId := 0xFF, uartServerMtu := 200 }
  let d₁ := { d with link := link }.setConnect 0
  if d₁.sys.ble.blePairTime ≠ 3000 then
    let d₂ := d₁.emit .startAdv
    if d₂.PairingOpen then d₂.setLed (d₂.led.ledBtPairing false) else d₂
  else d₁

/-- The `SERVER_NOTIFICATION_DONE` case of `gatt_manager_callback`. -/
def gattNotificationDone (d : Dock) : Dock :=
  { d with link := { d.link with uartServerNtfDone := true } }

/-- The `MTU_CHANGED_INDICATION` case of `gatt_manager_callback`. -/
def gattMtuChanged (d : Dock) (mtu : UInt16) : Dock :=
  { d with link := { d.link with uartServerMtu := mtu } }

/-- The tick of `ls_10ms_timer_cb`. -/
def timerTick (d : Dock) : Dock := d.mapAnti fun a => { a with timer := a.timer + 1 }

/-! ### Background work -/

theorem background_controlTimer1000ms (d : Dock) (status : UInt8) :
    Background d (d.controlTimer1000ms status) := ⟨rfl, rfl, rfl, rfl, rfl, rfl⟩

theorem background_gapConnected (d : Dock) (conIdx : UInt8) :
    Background d (d.gapConnected conIdx) := by
  simp only [gapConnected]
  split <;> exact ⟨rfl, rfl, rfl, rfl, rfl, rfl⟩

theorem background_gapDisconnected (d : Dock) : Background d d.gapDisconnected := by
  simp only [gapDisconnected]
  split
  · split <;> exact ⟨rfl, rfl, rfl, rfl, rfl, rfl⟩
  · exact ⟨rfl, rfl, rfl, rfl, rfl, rfl⟩

end Dock
end ErgoDock
