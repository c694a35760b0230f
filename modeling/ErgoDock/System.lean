import ErgoDock.Control
import ErgoDock.Lib.Run

/-! # The running firmware

After `main` has loaded the configuration and started the timers, everything happens in
callbacks.  `Event` lists them, at the granularity of the functions they call, so that a run
(`runFrom`) may take them in any order; the timer callbacks are particular sequences of
events.  A run starts in `boot`, from any content of the flash page and any position of the
voice switch. -/

namespace ErgoDock

open Machine

/-- What can happen to the running firmware. -/
inductive Event where
  /-- `g_sysparam_st.timer++`, every 10 ms. -/
  | tick
  /-- `check_offline_voice_keys` with the two contacts. -/
  | switchSample (key1 key2 : UInt8)
  /-- `control_timer10ms` with the touch keys. -/
  | control (key : UInt8)
  /-- `led_ctrl_10ms_handler`. -/
  | led
  /-- `control_timer1000ms` with the charger's status. -/
  | charge (status : UInt8)
  /-- The snore interrupt. -/
  | snoreEdge
  /-- `SnoringIntervention_run`, every 100 ms. -/
  | snoreRun
  /-- `flash_run`, every 5 ms. -/
  | flashRun
  /-- `offline_voice_Handle` for a frame on UART2. -/
  | voiceFrame (cmd data : UInt8)
  /-- `x_uart1_dateReceiveHandle` for the bytes of a main-box frame. -/
  | mfpFrame (raw : List UInt8)
  /-- `x_uart3_dateReceiveHandle` for the bytes of a status frame. -/
  | statusFrame (raw : List UInt8)
  /-- A GATT write to the UART service. -/
  | bleWrite (value : List UInt8)
  | connected (conIdx : UInt8)
  | disconnected
  | notificationDone
  | mtuChanged (mtu : UInt16)
deriving DecidableEq, Repr

/-- The effect of an event. -/
def step (d : Dock) : Event → Dock
  | .tick => d.timerTick
  | .switchSample key1 key2 => d.checkOfflineVoiceKeys key1 key2
  | .control key => d.controlTimer10ms key
  | .led => d.ledCtrl10msHandler
  | .charge status => d.controlTimer1000ms status
  | .snoreEdge => d.ioExtiCallback
  | .snoreRun => d.snoringInterventionRun
  | .flashRun => d.flashSaveSnoreCfgIfChanged
  | .voiceFrame cmd data => d.offlineVoiceHandle cmd data
  | .mfpFrame raw => d.xUart1DateReceiveHandle raw
  | .statusFrame raw => d.xUart3DateReceiveHandle raw
  | .bleWrite value => d.uartServerWriteReq value
  | .connected conIdx => d.gapConnected conIdx
  | .disconnected => d.gapDisconnected
  | .notificationDone => d.gattNotificationDone
  | .mtuChanged mtu => d.gattMtuChanged mtu

/-- What a start of the firmware depends on. -/
structure Boot where
  page : List UInt8
  key1 : UInt8
  key2 : UInt8

/-- The state when the timers start: `main` up to `ble_loop`, then `x_uart_init`. -/
def boot (b : Boot) : Dock :=
  ({ flash := { page := b.page } : Dock }.flashLoad.snoringInterventionInit).xUartInit b.key1 b.key2

/-- The state after a run of the firmware. -/
def runFrom (b : Boot) (es : List Event) : Dock := exec step (boot b) es

theorem runFrom_append (b : Boot) (es fs : List Event) :
    runFrom b (es ++ fs) = exec step (runFrom b es) fs := exec_append ..

theorem runFrom_concat (b : Boot) (es : List Event) (e : Event) :
    runFrom b (es ++ [e]) = step (runFrom b es) e := exec_append ..

end ErgoDock
