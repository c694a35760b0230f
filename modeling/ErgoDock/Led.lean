import ErgoDock.Dock

/-! # LED control (`app_led_ctrl.c`)

Four LEDs, each with one running task (a colour, a mode, a priority, a timeout).  A request
of lower priority than the running task is rejected; a task that ends runs its callback.
The requests work on the LED module alone; only the 10 ms handler can reach further, through
the callback of the pairing window. -/

namespace ErgoDock

def ledIdMax : ℕ := 4

def ledPriorityNormal : UInt8 := 0
def ledPriorityHigh : UInt8 := 5
def ledPriorityCritical : UInt8 := 10

/-- `led_pin_map`, read through `led_get_pin_by_color`; `none` is `LED_PIN_NONE`. -/
def ledGetPinByColor : ℕ → LedColor → Option LedPin
  | 0, .blue => some .blue0
  | 0, .red => some .redAll
  | 1, .blue => some .blue1
  | 1, .green => some .green1
  | 1, .red => some .redAll
  | 2, .blue => some .blue2
  | 2, .red => some .redAll
  | 3, .blue => some .blue3
  | 3, .green => some .green3
  | _, _ => none

namespace LedModule

/-! ### Hardware -/

/-- `led_hw_set_pin`: low is lit. -/
def ledHwSetPin (m : LedModule) (pin : Option LedPin) (on : Bool) : LedModule :=
  match pin with
  | none => m
  | some p => { m with level := Function.update m.level p (!on) }

/-- `led_hw_turn_on`. -/
def ledHwTurnOn (m : LedModule) (ledId : ℕ) (color : LedColor) : LedModule :=
  m.ledHwSetPin (ledGetPinByColor ledId color) true

/-- `led_hw_turn_off`. -/
def ledHwTurnOff (m : LedModule) (ledId : ℕ) (color : LedColor) : LedModule :=
  m.ledHwSetPin (ledGetPinByColor ledId color) false

def setCtrl (m : LedModule) (i : Fin 4) (c : LedCtrl) : LedModule :=
  { m with ledCtrl := Function.update m.ledCtrl i c }

/-! ### Requests -/

/-- The preamble `led_ctrl_set_on` and `led_ctrl_set_flash` share: reject an unknown LED, no
colour, an unsupported colour or a lower priority; otherwise darken another colour of the LED
and go on with `accept`. -/
def ledCtrlRequest (m : LedModule) (ledId : ℕ) (color : LedColor) (priority : UInt8)
    (accept : LedModule → Fin 4 → LedCtrl → LedModule) : Bool × LedModule :=
  if h : ledId < ledIdMax then
    if color = .none then (false, m)
    else if ledGetPinByColor ledId color = none then (false, m)
    else
      let i : Fin 4 := ⟨ledId, h⟩
      let ctrl := m.ledCtrl i
      if ctrl.mode ≠ .off ∧ ctrl.priority > priority then (false, m)
      else
        let m₁ := if ctrl.color ≠ .none ∧ ctrl.color ≠ color then m.ledHwTurnOff ledId ctrl.color
          else m
        (true, accept m₁ i ctrl)
  else (false, m)

/-- `led_ctrl_set_on`. -/
def ledCtrlSetOn (m : LedModule) (ledId : ℕ) (color : LedColor) (timeoutS : UInt16)
    (priority : UInt8) (callback : Option LedCallback) : Bool × LedModule :=
  m.ledCtrlRequest ledId color priority fun m i ctrl =>
    (m.setCtrl i { ctrl with
      color := color
      mode := if timeoutS = 0 then .onPermanent else .on
      timeout100ms := timeoutS * 10
      priority := priority
      callback := callback }).ledHwTurnOn ledId color

/-- `led_ctrl_set_flash`. -/
def ledCtrlSetFlash (m : LedModule) (ledId : ℕ) (color : LedColor) (intervalMs : UInt16)
    (times : UInt8) (timeoutS : UInt16) (priority : UInt8) (callback : Option LedCallback) :
    Bool × LedModule :=
  m.ledCtrlRequest ledId color priority fun m i ctrl =>
    (m.setCtrl i { ctrl with
      color := color
      mode := .flash
      flashInterval10ms := intervalMs / 10
      flashCounter := 0
      flashTimes := times * 2
      timeout100ms := timeoutS * 10
      priority := priority
      callback := callback }).ledHwTurnOff ledId color

/-- The fields every ending of a task clears. -/
def cleared (ctrl : LedCtrl) : LedCtrl :=
  { ctrl with color := .none, mode := .off, timeout100ms := 0, priority := 0, callback := none }

/-- `led_ctrl_set_off` (and `led_ctrl_force_off`, which only calls it). -/
def ledCtrlSetOff (m : LedModule) (ledId : ℕ) : LedModule :=
  if h : ledId < ledIdMax then
    let ctrl := m.ledCtrl ⟨ledId, h⟩
    let m₁ := if ctrl.color ≠ .none then m.ledHwTurnOff ledId ctrl.color else m
    m₁.setCtrl ⟨ledId, h⟩ (cleared ctrl)
  else m

/-! ### Business functions -/

/-- `led_snore_level_set`. -/
def ledSnoreLevelSet (m : LedModule) (level : UInt8) : LedModule :=
  if level = 0 then ((m.ledCtrlSetOff 0).ledCtrlSetOff 1).ledCtrlSetOff 2
  else if level ≤ 3 then
    let ledId := level.toNat - 1
    let m₁ := ([0, 1, 2].filter (· ≠ ledId)).foldl ledCtrlSetOff m
    (m₁.ledCtrlSetOn ledId .blue 10 ledPriorityNormal none).2
  else m

/-- `led_snore_disabled_flash`. -/
def ledSnoreDisabledFlash (m : LedModule) : LedModule :=
  [0, 1, 2].foldl
    (fun m ledId => (m.ledCtrlSetFlash ledId .blue 200 2 3 ledPriorityCritical none).2) m

/-- `led_voice_restore_blue`. -/
def ledVoiceRestoreBlue (m : LedModule) : LedModule :=
  if (m.ledCtrl 3).priority ≤ ledPriorityNormal then
    (m.ledCtrlSetOn 3 .blue 0 ledPriorityNormal none).2
  else m

/-- `led_voice_wakeup`. -/
def ledVoiceWakeup (m : LedModule) : LedModule :=
  if (m.ledCtrl 3).priority > ledPriorityNormal then m
  else (m.ledCtrlSetOn 3 .blue 0 ledPriorityNormal none).2

/-- `led_voice_command_confirm`. -/
def ledVoiceCommandConfirm (m : LedModule) : LedModule :=
  if (m.ledCtrl 3).priority > ledPriorityNormal then m
  else (m.ledCtrlSetOn 3 .green 3 ledPriorityNormal (some .voiceRestoreBlue)).2

/-- `led_voice_close_flash`. -/
def ledVoiceCloseFlash (m : LedModule) : LedModule :=
  (m.ledCtrlSetFlash 3 .blue 200 2 3 ledPriorityNormal none).2

/-- `led_ctrl_clear_all_snore_leds`; the timeout of a cleared task is left as it is. -/
def ledCtrlClearAllSnoreLeds (m : LedModule) : LedModule :=
  [(0 : Fin 4), 1, 2].foldl (fun m i =>
    let ctrl := m.ledCtrl i
    if ctrl.color = .blue then
      (m.ledHwTurnOff i .blue).setCtrl i
        { ctrl with color := .none, mode := .off, priority := 0, callback := none }
    else m) m

/-- `led_charge_normal`. -/
def ledChargeNormal (m : LedModule) : LedModule :=
  if (m.ledCtrl 1).priority > ledPriorityNormal ∧ (m.ledCtrl 1).mode ≠ .off then m
  else (m.ledCtrlSetOn 1 .green 15 ledPriorityNormal none).2

/-- `led_charge_error`. -/
def ledChargeError (m : LedModule) : LedModule :=
  (m.ledCtrlClearAllSnoreLeds.ledCtrlSetOn 0 .red 30 ledPriorityCritical none).2

/-- `led_charge_stop`. -/
def ledChargeStop (m : LedModule) : LedModule :=
  if (m.ledCtrl 1).color = .green ∧ (m.ledCtrl 1).mode ≠ .off then m.ledCtrlSetOff 1 else m

/-- `led_bt_pairing`. -/
def ledBtPairing (m : LedModule) (connected : Bool) : LedModule :=
  if connected then (m.ledCtrlSetOn 3 .blue 30 ledPriorityHigh (some .btPairingTimeout)).2
  else (m.ledCtrlSetFlash 3 .blue 500 0 30 ledPriorityHigh (some .btPairingTimeout)).2

/-- `led_bt_pairing_stop`; `enabled` is `g_offline_voice.enabled`. -/
def ledBtPairingStop (m : LedModule) (enabled : Bool) : LedModule :=
  let m₁ := m.ledCtrlSetOff 3
  if enabled then m₁.ledVoiceWakeup else m₁

end LedModule

/-! ### The 10 ms handler -/

namespace Dock

/-- `led_bt_pairing_timeout_callback`. -/
def ledBtPairingTimeoutCallback (d : Dock) : Dock :=
  let ble := { d.sys.ble with blePairFlag := 0, blePairTime := 0 }
  { d with sys := { d.sys with ble := ble } }.emit .stopAdv

/-- `led_task_finish`: the callback runs after the task is cleared. -/
def ledTaskFinish (d : Dock) (i : Fin 4) : Dock :=
  let ctrl := d.led.ledCtrl i
  let m := (d.led.ledHwTurnOff i ctrl.color).setCtrl i (LedModule.cleared ctrl)
  match ctrl.callback with
  | none => d.setLed m
  | some .voiceRestoreBlue => d.setLed m.ledVoiceRestoreBlue
  | some .btPairingTimeout => (d.setLed m).ledBtPairingTimeoutCallback

/-- The flash part of the handler for one LED; `true` when the flash count has run out and
the task is finished. -/
def ledFlash10ms (d : Dock) (i : Fin 4) : Bool × Dock :=
  let ctrl := { d.led.ledCtrl i with flashCounter := (d.led.ledCtrl i).flashCounter + 1 }
  if ctrl.flashCounter ≥ ctrl.flashInterval10ms then
    let pin := ledGetPinByColor i ctrl.color
    let high := (pin.map d.led.level).getD false
    let m := d.led.ledHwSetPin pin high
    if ctrl.flashTimes > 0 then
      let ctrl₁ := { ctrl with flashCounter := 0, flashTimes := ctrl.flashTimes - 1 }
      let d₁ := d.setLed (m.setCtrl i ctrl₁)
      if ctrl₁.flashTimes = 0 then (true, d₁.ledTaskFinish i) else (false, d₁)
    else (false, d.setLed (m.setCtrl i { ctrl with flashCounter := 0 }))
  else (false, d.setLed (d.led.setCtrl i ctrl))

/-- The timeout part of the handler for one LED. -/
def ledTimeout10ms (d : Dock) (is100msTick : Bool) (i : Fin 4) : Dock :=
  let ctrl := d.led.ledCtrl i
  if is100msTick ∧ ctrl.timeout100ms > 0 then
    let ctrl₁ := { ctrl with timeout100ms := ctrl.timeout100ms - 1 }
    let d₁ := d.setLed (d.led.setCtrl i ctrl₁)
    if ctrl₁.timeout100ms = 0 then d₁.ledTaskFinish i else d₁
  else d

/-- The body of the handler's loop. -/
def ledTask10ms (is100msTick : Bool) (d : Dock) (i : Fin 4) : Dock :=
  if (d.led.ledCtrl i).mode = .off then d
  else if (d.led.ledCtrl i).mode = .flash then
    let r := d.ledFlash10ms i
    if r.1 then r.2 else r.2.ledTimeout10ms is100msTick i
  else d.ledTimeout10ms is100msTick i

/-- `led_ctrl_10ms_handler`. -/
def ledCtrl10msHandler (d : Dock) : Dock :=
  let timer100ms := d.led.timer100ms + 1
  let is100msTick : Bool := timer100ms ≥ 10
  let d₁ := d.setLed { d.led with timer100ms := if is100msTick then 0 else timer100ms }
  [(0 : Fin 4), 1, 2, 3].foldl (ledTask10ms is100msTick) d₁

/-! ### The handler is background work -/

theorem background_ledTaskFinish (d : Dock) (i : Fin 4) : Background d (d.ledTaskFinish i) := by
  simp only [ledTaskFinish]
  split <;> exact ⟨rfl, rfl, rfl, rfl, rfl, rfl⟩

theorem background_ledFlash10ms (d : Dock) (i : Fin 4) : Background d (d.ledFlash10ms i).2 := by
  simp only [ledFlash10ms]
  split
  · split
    · split
      · exact (background_setLed d _).trans (background_ledTaskFinish _ i)
      · exact background_setLed d _
    · exact background_setLed d _
  · exact background_setLed d _

theorem background_ledTimeout10ms (d : Dock) (is100msTick : Bool) (i : Fin 4) :
    Background d (d.ledTimeout10ms is100msTick i) := by
  simp only [ledTimeout10ms]
  split
  · split
    · exact (background_setLed d _).trans (background_ledTaskFinish _ i)
    · exact background_setLed d _
  · exact .refl d

theorem background_ledTask10ms (is100msTick : Bool) (d : Dock) (i : Fin 4) :
    Background d (ledTask10ms is100msTick d i) := by
  have hflash := d.background_ledFlash10ms i
  simp only [ledTask10ms]
  split
  · exact .refl d
  · split
    · split
      · exact hflash
      · exact hflash.trans (background_ledTimeout10ms _ is100msTick i)
    · exact d.background_ledTimeout10ms is100msTick i

theorem background_ledCtrl10msHandler (d : Dock) : Background d d.ledCtrl10msHandler :=
  (background_setLed d _).trans (background_foldl _ (background_ledTask10ms _) _ _)

end Dock
end ErgoDock
