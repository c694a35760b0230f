import ErgoDock.MfpQueue

/-! # The state of the firmware

`Dock` collects the shared records and the file statics of the modelled source files, one
field for each file, together with the list of outputs (`out`, latest first).  Most outputs
are calls of the drivers; `liftStart` and `voiceCmd` are the log lines with which
`snore_lift_start` and `offline_voice_dataHandle` announce what they do. -/

namespace ErgoDock

/-! ### LEDs (`app_led_ctrl.c`) -/

inductive LedColor where
  | none
  | blue
  | green
  | red
deriving DecidableEq, Repr

inductive LedMode where
  | off
  | on
  | onPermanent
  | flash
deriving DecidableEq, Repr

inductive LedPin where
  | blue0
  | blue1
  | blue2
  | blue3
  | green1
  | green3
  | redAll
deriving DecidableEq, Repr

/-- The completion callbacks that are ever installed. -/
inductive LedCallback where
  | voiceRestoreBlue
  | btPairingTimeout
deriving DecidableEq, Repr

/-- `led_ctrl_t`. -/
structure LedCtrl where
  color : LedColor := .none
  mode : LedMode := .off
  timeout100ms : UInt16 := 0
  flashInterval10ms : UInt16 := 0
  flashCounter : UInt16 := 0
  flashTimes : UInt8 := 0
  priority : UInt8 := 0
  callback : Option LedCallback := none
deriving DecidableEq, Repr

/-- The statics of `app_led_ctrl.c` and the level of the LED pins (`true` is high, which is
dark). -/
structure LedModule where
  ledCtrl : Fin 4 → LedCtrl := fun _ => {}
  level : LedPin → Bool := fun _ => true
  timer100ms : UInt8 := 0

/-! ### Statics of the other files -/

/-- `snore_dbg_*` and `snore_cnt_*` of `x_snoreintervention.c`. -/
structure SnoreDbg where
  t0Of1min : UInt32 := 0
  baseOf1min : UInt16 := 0
  cnt1min : UInt16 := 0
  t0Of5min : UInt32 := 0
  baseOf5min : UInt16 := 0
  cnt5min : UInt16 := 0
deriving DecidableEq, Repr

/-- `VoiceState` of `offline_voice_Handle`. -/
inductive VoiceState where
  | disabled
  | wakeWordDetected
  | active
deriving DecidableEq, Repr

/-- The statics of `check_offline_voice_keys`. -/
structure SwitchStatics where
  rawLast : UInt8 := 0xFF
  rawCnt : UInt8 := 0
  stable : UInt8 := 0xFF
deriving DecidableEq, Repr

/-- The statics of `ci1302_uart2_voice_config_sync`. -/
structure Ci1302Shadow where
  haveShadow : Bool := false
  shEn : Bool := false
  shWw : UInt8 := 0
deriving DecidableEq, Repr

/-- `keys_ignore` and the statics of `control_timer10ms`. -/
structure KeyStatics where
  keysIgnore : Bool := false
  lastKey : UInt8 := 0
  keyRepeat : UInt16 := 0
deriving DecidableEq, Repr

/-- `chargeAbnormal_flag` and the static of `control_timer1000ms`. -/
structure ChargeStatics where
  chargeAbnormalFlag : Bool := false
  lastChargeStatus : UInt8 := 0xFF
deriving DecidableEq, Repr

/-- The configuration page and the shadow copies of `x_flash.c`. -/
structure FlashModule where
  page : List UInt8 := []
  oldSnorePwm : UInt8 := 0
  oldSnoreTmr : UInt8 := 0
  oldSnoreIntensity : UInt8 := 0
deriving DecidableEq, Repr

/-- The statics of `main.c` for the notification channel. -/
structure BleLink where
  connectId : UInt8 := 0xFF
  uartServerNtfDone : Bool := true
  uartServerMtu : UInt16 := 200
deriving DecidableEq, Repr

/-- What the firmware does to the outside, besides the main-box bus (see `MfpAct`). -/
inductive Output where
  | uart2 (data : List UInt8)
  | notify (conIdx : UInt8) (data : List UInt8)
  | startAdv
  | stopAdv
  | flashErase
  | flashProgram (data : List UInt8)
  | liftStart (pwm tmrSegSec : UInt8) (endTick : UInt32)
  | voiceCmd (cmd : UInt8)
deriving DecidableEq, Repr

/-! ### The state -/

structure Dock where
  sys : SysParam := {}
  voice : OfflineVoice := {}
  voiceState : VoiceState := .disabled
  mfp : MfpQueue := {}
  led : LedModule := {}
  dbg : SnoreDbg := {}
  /-- `s_uart1_last_mfp_raw`, the first `s_uart1_last_mfp_raw_len` bytes. -/
  uart1LastMfpRaw : List UInt8 := []
  switch : SwitchStatics := {}
  ci1302Shadow : Ci1302Shadow := {}
  keys : KeyStatics := {}
  charge : ChargeStatics := {}
  flash : FlashModule := {}
  link : BleLink := {}
  /-- The first `bletxlen` bytes of `bletxbuff`. -/
  bletx : List UInt8 := []
  out : List Output := []

namespace Dock

/-- The fields the anti-snore controller works on. -/
def anti (d : Dock) : AntiSnore := d.sys.toAntiSnore

/-- Change the fields of the anti-snore controller. -/
def mapAnti (d : Dock) (f : AntiSnore → AntiSnore) : Dock :=
  { d with sys := { d.sys with toAntiSnore := f d.sys.toAntiSnore } }

def emit (d : Dock) (o : Output) : Dock := { d with out := o :: d.out }

def setLed (d : Dock) (m : LedModule) : Dock := { d with led := m }

def setBletx (d : Dock) (frame : List UInt8) : Dock := { d with bletx := frame }

/-- The lift segments started so far, latest first. -/
def liftStarts (d : Dock) : List Output :=
  d.out.filter fun | .liftStart .. => true | _ => false

/-- The control words executed so far, latest first. -/
def voiceCmds (d : Dock) : List Output :=
  d.out.filter fun | .voiceCmd _ => true | _ => false

section mapAnti
variable (d : Dock) (f : AntiSnore → AntiSnore)

@[simp] theorem anti_mapAnti : (d.mapAnti f).anti = f d.anti := rfl
@[simp] theorem mfp_mapAnti : (d.mapAnti f).mfp = d.mfp := rfl
@[simp] theorem out_mapAnti : (d.mapAnti f).out = d.out := rfl
@[simp] theorem voice_mapAnti : (d.mapAnti f).voice = d.voice := rfl
@[simp] theorem voiceState_mapAnti : (d.mapAnti f).voiceState = d.voiceState := rfl
@[simp] theorem liftStarts_mapAnti : (d.mapAnti f).liftStarts = d.liftStarts := rfl
@[simp] theorem voiceCmds_mapAnti : (d.mapAnti f).voiceCmds = d.voiceCmds := rfl

end mapAnti

/-! ### Background work

Most of what the firmware does (LEDs, notifications, flash, the chip's configuration) does
not concern the controller, the bus queue or the voice session. -/

/-- From `d` to `d'` the controller, the queue and the voice session are left alone. -/
structure Background (d d' : Dock) : Prop where
  anti : d'.anti = d.anti
  mfp : d'.mfp = d.mfp
  voice : d'.voice = d.voice
  voiceState : d'.voiceState = d.voiceState
  liftStarts : d'.liftStarts = d.liftStarts
  voiceCmds : d'.voiceCmds = d.voiceCmds

theorem Background.refl (d : Dock) : Background d d := ⟨rfl, rfl, rfl, rfl, rfl, rfl⟩

theorem Background.trans {d₁ d₂ d₃ : Dock} (h : Background d₁ d₂) (h' : Background d₂ d₃) :
    Background d₁ d₃ :=
  ⟨h'.anti.trans h.anti, h'.mfp.trans h.mfp, h'.voice.trans h.voice,
    h'.voiceState.trans h.voiceState, h'.liftStarts.trans h.liftStarts,
    h'.voiceCmds.trans h.voiceCmds⟩

theorem background_setLed (d : Dock) (m : LedModule) : Background d (d.setLed m) :=
  ⟨rfl, rfl, rfl, rfl, rfl, rfl⟩

theorem background_setBletx (d : Dock) (frame : List UInt8) : Background d (d.setBletx frame) :=
  ⟨rfl, rfl, rfl, rfl, rfl, rfl⟩

theorem background_foldl {α : Type} (f : Dock → α → Dock) (h : ∀ d a, Background d (f d a)) :
    ∀ (as : List α) (d : Dock), Background d (as.foldl f d)
  | [], d => .refl d
  | a :: as, d => (h d a).trans (background_foldl f h as (f d a))

end Dock
end ErgoDock
