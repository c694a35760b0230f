import Mathlib

/-! # The shared records (`g.h`)

The records every source file of the firmware works on: the system parameters
`g_sysparam_st` (`SysParam`), the voice switch record `g_offline_voice` (`OfflineVoice`) and
the key values of the main-box protocol.  Integers have the widths of the source, so
increments, subtractions and narrowing casts wrap as they do there.

The fields of `g_sysparam_st` that the anti-snore controller works on (`timer`, the two
levels, `sf` and `snoreIntervention`) are grouped in `AntiSnore`, which `SysParam` extends;
fields that no modelled function reads (air pump, posture, calendar, stretch) are left out. -/

namespace ErgoDock

/-! ### Key values -/

def keyM1Out : UInt32 := 0x00000001
def keyM1In : UInt32 := 0x00000002
def keyM2Out : UInt32 := 0x00000004
def keyM2In : UInt32 := 0x00000008
def keyM3Out : UInt32 := 0x00000010
def keyM3In : UInt32 := 0x00000020
def keyM4Out : UInt32 := 0x00000040
def keyM4In : UInt32 := 0x00000080
def keyMassageAll : UInt32 := 0x00000100
def keyMassageFeet : UInt32 := 0x00000400
def keyMassageHead : UInt32 := 0x00000800
def keyZerog : UInt32 := 0x00001000
def keyMemory3 : UInt32 := 0x00004000
def keyMemory4 : UInt32 := 0x00008000
def keyMemory5 : UInt32 := 0x00010000
def keyUbb : UInt32 := 0x00020000
def keyMassageHeadMinus : UInt32 := 0x00800000
def keyMassageFeetMinus : UInt32 := 0x01000000
def keyMassageStopAll : UInt32 := 0x02000000
def keyAllFlat : UInt32 := 0x08000000

/-- The motor bits: M1 to M4, out and in. -/
def motorMask : UInt32 := 0x000000FF

/-! ### Anti-snore -/

/-- `x_sf_st`: the snore statistics (`snoreNub` is incremented by the edge interrupt). -/
structure XSf where
  snoreNub : UInt16 := 0
  snoreNubperiod : UInt16 := 0
  snorevolume : UInt16 := 0
  snoreIntervenNub : UInt16 := 0
  snorevolumeAcc : UInt32 := 0
  snorevolumeCnt : UInt32 := 0
deriving DecidableEq, Repr

/-- `snoreIntervention_t`.  Times are in ticks of 10 ms; `timerS = 0`, `firstLiftTick = 0` and
`liftSegEndTick = 0` mean that no window, cycle or lift segment is open. -/
structure SnoreIntervention where
  trig : UInt32 := 0
  triging : UInt32 := 0
  trigTimer : UInt32 := 0
  enable : Bool := false
  triggeredTimeS : UInt32 := 0
  isIntervening : Bool := false
  triggeredFlag : Bool := false
  snoreInterventionPwm : UInt8 := 0
  snoreInterventionTmr : UInt8 := 0
  timerS : UInt32 := 0
  oldsnoreNub : UInt32 := 0
  liftStage : UInt8 := 0
  firstLiftTick : UInt32 := 0
  liftSegEndTick : UInt32 := 0
  liftSegPwm : UInt8 := 0
  runMode : UInt8 := 0
deriving DecidableEq, Repr

/-- The fields of `g_sysparam_st` that `x_snoreintervention.c` works on. -/
structure AntiSnore where
  timer : UInt32 := 0
  antiSnoreIntensity : UInt8 := 0
  lastAntiSnoreIntensity : UInt8 := 0
  sf : XSf := {}
  snoreIntervention : SnoreIntervention := {}
deriving DecidableEq, Repr

/-! ### The other system parameters -/

/-- `CI1302_t`: the status last reported by the voice chip on UART3. -/
structure Ci1302 where
  version : UInt16 := 0
  snorevolume : UInt16 := 0
  snoreState : UInt8 := 0
deriving DecidableEq, Repr

/-- `ble_st`. -/
structure BleSt where
  bleConnect : UInt8 := 0
  blePairFlag : UInt8 := 0
  blePairTime : UInt16 := 0
deriving DecidableEq, Repr

/-- `ble_testinfo_st`: counters in RAM, `voiceDetail[i]` for the command `0x21 + i`. -/
structure BleTestinfo where
  offlineVoiceWake : UInt16 := 0
  offlineVoiceResp : UInt16 := 0
  snoreInterventionTrig : UInt16 := 0
  voiceDetail : List UInt8 := List.replicate 24 0
deriving DecidableEq, Repr

/-- The increment of a 16-bit counter that stops at `0xFFFF`. -/
def satInc (n : UInt16) : UInt16 := if n < 0xFFFF then n + 1 else n

theorem toNat_satInc (n : UInt16) : (satInc n).toNat = min 65535 (n.toNat + 1) := by
  have hlt := n.toNat_lt
  unfold satInc
  split
  · next h =>
    rw [UInt16.lt_iff_toNat_lt] at h
    rw [UInt16.toNat_add]
    simp only [UInt16.reduceToNat] at h ⊢
    omega
  · next h =>
    rw [UInt16.lt_iff_toNat_lt] at h
    simp only [UInt16.reduceToNat] at h
    omega

/-- `g_sysparam_st`. -/
structure SysParam extends AntiSnore where
  ci1302 : Ci1302 := {}
  ubb : UInt8 := 0
  m1 : UInt8 := 0
  m2 : UInt8 := 0
  massageTimer : UInt32 := 0
  mfpKeys : UInt32 := 0
  chargeState : UInt8 := 0
  ble : BleSt := {}
  bleTestinfo : BleTestinfo := {}
deriving DecidableEq, Repr

/-! ### The voice switch record -/

def helloErgo : UInt8 := 1
def helloBed : UInt8 := 2

/-- `offline_voice_ctrl_t`. -/
structure OfflineVoice where
  keyEnable : Bool := false
  enabled : Bool := false
  wakeWord : UInt8 := 0
  ubbEnable : Bool := false
  lastControlCmd : UInt8 := 0
  bedType : UInt8 := 0
deriving DecidableEq, Repr

end ErgoDock
